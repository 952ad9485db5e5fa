import Mathlib.Data.List.Chain
import Mathlib.Data.List.Infix
import Scriptwright.Proofs.PaddedCalls
import Scriptwright.Script.Rules

/-!
# How far a rule looks

A rule is asked at every place of a code whether one of its patterns matches there.
To say that it never does, three things are enough to know about a pattern.

* It fails on what is known of the code from a place on, whatever comes behind
  (`Pattern.isRefutedAt`): this is computed, for code that is fixed.
* It demands something that the text up to a certain character does not have, and
  it cannot pass that character (`Pattern.isForeign`): this is for code of which
  only its alphabet is known (`Alphabet.Spells`).
* It cannot begin with the character at the place (`Pattern.shuns`).

A property of places that holds throughout a text holds throughout its parts, each
between its neighbours (`throughout_append`), so that **code put together from lines
is judged line by line** (`InLine.flatten`).
-/

namespace Scriptwright

/-! ## Throughout a text -/

/-- A property of places holds at every place of a text that stands between two others. -/
def Throughout (P : Place → Prop) (before t rest : Text) : Prop :=
  ∀ u v, t = u ++ v → v ≠ [] → P ⟨u.reverse ++ before, v ++ rest⟩

section

variable {P Q : Place → Prop} {before t u rest : Text}

/-- There is no place in the empty text. -/
theorem throughout_nil : Throughout P before [] rest := by
  intro u v h hne
  exact absurd (List.append_eq_nil_iff.1 h.symm).2 hne

/-- The places of a text are its first and those of the rest. -/
theorem throughout_cons {c : Char} :
    Throughout P before (c :: t) rest ↔
      P ⟨before, c :: (t ++ rest)⟩ ∧ Throughout P (c :: before) t rest := by
  constructor
  · intro h
    refine ⟨h [] (c :: t) rfl (List.cons_ne_nil _ _), fun u v huv hne => ?_⟩
    have hplace := h (c :: u) v (by rw [huv]; rfl) hne
    rwa [List.reverse_cons, List.append_assoc] at hplace
  · rintro ⟨hfirst, hmore⟩ u v huv hne
    cases u with
    | nil =>
        rw [List.nil_append] at huv
        rw [← huv]
        exact hfirst
    | cons d u =>
        obtain ⟨rfl, rfl⟩ := List.cons.inj huv
        rw [List.reverse_cons, List.append_assoc]
        exact hmore u v rfl hne

/-- **Throughout two texts**, each next to the other. -/
theorem throughout_append :
    Throughout P before (t ++ u) rest ↔
      Throughout P before t (u ++ rest) ∧ Throughout P (t.reverse ++ before) u rest := by
  induction t generalizing before with
  | nil => exact ⟨fun h => ⟨throughout_nil, h⟩, fun h => h.2⟩
  | cons c t ih =>
      rw [List.cons_append, throughout_cons, throughout_cons, ih, List.append_assoc,
        List.reverse_cons, List.append_assoc, and_assoc]
      rfl

/-- What follows from a property that holds throughout holds throughout. -/
theorem Throughout.imp (h : Throughout P before t rest) (hPQ : ∀ p, P p → Q p) :
    Throughout Q before t rest := fun u v huv hne => hPQ _ (h u v huv hne)

end

/-- The places of a text that stands between two others. -/
def Place.along (rest before : Text) : Text → List Place
  | [] => []
  | c :: t => ⟨before, c :: (t ++ rest)⟩ :: along rest (c :: before) t

/-- Behind the first character no place is at the beginning. -/
theorem Place.before_ne_nil_of_mem_along {rest before t : Text} {p : Place}
    (h : p ∈ along rest before t) (hbefore : before ≠ []) : p.before ≠ [] := by
  induction t generalizing before with
  | nil => cases h
  | cons c t ih =>
      rcases List.mem_cons.1 h with rfl | h
      · exact hbefore
      · exact ih h (List.cons_ne_nil _ _)

/-- Of the texts on either side, the parts next to the text may be enough. -/
theorem throughout_of_along {P : Place → Prop} {rest before t : Text} (farther farthest : Text)
    (h : ∀ p ∈ Place.along rest before t, P ⟨p.before ++ farther, p.after ++ farthest⟩) :
    Throughout P (before ++ farther) t (rest ++ farthest) := by
  induction t generalizing before with
  | nil => exact throughout_nil
  | cons c t ih =>
      have hfirst := h _ List.mem_cons_self
      have hmore := ih fun p hp => h p (List.mem_cons_of_mem _ hp)
      dsimp only [List.cons_append] at hfirst
      rw [List.append_assoc] at hfirst
      exact throughout_cons.2 ⟨hfirst, hmore⟩

/-- Characters that a line of a built script may begin with. -/
def lineStarts : List Char := [' ', '\n', '}']

/-- A property of places holds throughout a text wherever it stands as lines of a script. -/
def InLine (P : Place → Prop) (t : Text) : Prop :=
  ∀ before c rest, before.head? = some '\n' → c ∈ lineStarts → Throughout P before t (c :: rest)

/-- Texts that are lines of a script. -/
structure IsLine (t : Text) : Prop where
  first : ∃ c more, t = c :: more ∧ c ∈ lineStarts
  last : t.getLast? = some '\n'

/-- Read from its end, a line begins with a line feed. -/
theorem IsLine.head?_reverse {t : Text} (h : IsLine t) (before : Text) :
    (t.reverse ++ before).head? = some '\n' := by
  rw [List.head?_append, List.head?_reverse, h.last]
  rfl

/-- What follows lines begins as a line does. -/
theorem exists_lineStart_flatten {lines : List Text} (hlines : ∀ t ∈ lines, IsLine t) {c : Char}
    (hc : c ∈ lineStarts) (rest : Text) :
    ∃ d behind, lines.flatten ++ c :: rest = d :: behind ∧ d ∈ lineStarts := by
  cases lines with
  | nil => exact ⟨c, rest, rfl, hc⟩
  | cons t more =>
      obtain ⟨d, u, rfl, hd⟩ := (hlines t List.mem_cons_self).first
      exact ⟨d, _, rfl, hd⟩

/-- **Line by line.**  What holds throughout each of some lines holds throughout all of them. -/
theorem InLine.flatten {P : Place → Prop} {lines : List Text} (hlines : ∀ t ∈ lines, IsLine t)
    (h : ∀ t ∈ lines, InLine P t) : InLine P lines.flatten := by
  induction lines with
  | nil => exact fun _ _ _ _ _ => throughout_nil
  | cons t more ih =>
      have hline := hlines t List.mem_cons_self
      have hmore : ∀ u ∈ more, IsLine u := fun u hu => hlines u (List.mem_cons_of_mem _ hu)
      intro before c rest hbefore hc
      obtain ⟨d, behind, hnext, hd⟩ := exists_lineStart_flatten hmore hc rest
      rw [List.flatten_cons, throughout_append]
      refine ⟨hnext ▸ h t List.mem_cons_self before d behind hbefore hd, ?_⟩
      exact ih hmore (fun u hu => h u (List.mem_cons_of_mem _ hu)) _ c rest
        (hline.head?_reverse before) hc

/-- **And the other way round**, of lines throughout which it holds everywhere or nowhere. -/
theorem inLine_of_throughout_flatten {P : Place → Prop} {lines : List Text}
    (hlines : ∀ t ∈ lines, IsLine t)
    (hsteady : ∀ t ∈ lines, ∀ before c rest, c ∈ lineStarts →
      Throughout P before t (c :: rest) → InLine P t)
    {before rest : Text} {c : Char} (hc : c ∈ lineStarts)
    (h : Throughout P before lines.flatten (c :: rest)) : ∀ t ∈ lines, InLine P t := by
  induction lines generalizing before with
  | nil => exact fun t ht => absurd ht List.not_mem_nil
  | cons t more ih =>
      have hmore : ∀ u ∈ more, IsLine u := fun u hu => hlines u (List.mem_cons_of_mem _ hu)
      obtain ⟨d, behind, hnext, hd⟩ := exists_lineStart_flatten hmore hc rest
      rw [List.flatten_cons, throughout_append] at h
      intro u hu
      rcases List.mem_cons.1 hu with rfl | hu
      · exact hsteady u List.mem_cons_self before d behind hd (hnext ▸ h.1)
      · exact ih hmore (fun v hv => hsteady v (List.mem_cons_of_mem _ hv)) h.2 u hu

namespace Pattern

/-- The pattern does not match at a place. -/
def Misses (pattern : Pattern) (p : Place) : Prop := pattern.match? p = none

/-- A text in which none of some patterns matches. -/
theorem find?_eq_none_iff {alternatives : List Pattern} {t : Text} :
    find? alternatives t = none ↔
      ∀ pattern ∈ alternatives, Throughout pattern.Misses [] t [] ∧
        pattern.Misses ⟨t.reverse, []⟩ := by
  have hat (p : Place) : (matchAny? alternatives p).isSome = false ↔
      ∀ pattern ∈ alternatives, pattern.Misses p := by
    rw [Option.isSome_eq_false_iff, Option.isNone_iff_eq_none, matchAny?,
      List.findSome?_eq_none_iff]
    rfl
  have hfrom (before : Text) : findFrom? alternatives before t = none ↔
      ∀ pattern ∈ alternatives, Throughout pattern.Misses before t [] ∧
        pattern.Misses ⟨t.reverse ++ before, []⟩ := by
    induction t generalizing before with
    | nil =>
        rw [findFrom?]
        split
        next hsome =>
          refine ⟨fun h => absurd h (by simp), fun h => ?_⟩
          have hnone := (hat _).2 fun pattern hpattern => (h pattern hpattern).2
          rw [List.reverse_nil, List.nil_append] at hnone
          rw [hnone] at hsome
          cases hsome
        next hnone =>
          have hnone := (hat _).1 (by simpa using hnone)
          exact ⟨fun _ pattern hpattern => ⟨throughout_nil, hnone pattern hpattern⟩, fun _ => rfl⟩
    | cons c t ih =>
        rw [findFrom?]
        simp only [throughout_cons, List.append_nil, List.reverse_cons, List.append_assoc]
        split
        next hsome =>
          refine ⟨fun h => absurd h (by simp), fun h => ?_⟩
          have hnone := (hat _).2 fun pattern hpattern => (h pattern hpattern).1.1
          rw [hnone] at hsome
          cases hsome
        next hnone =>
          have hnone := (hat _).1 (by simpa using hnone)
          rw [ih]
          refine forall₂_congr fun pattern hpattern => ?_
          exact ⟨fun h => ⟨⟨hnone pattern hpattern, h.1⟩, h.2⟩, fun h => ⟨h.1.2, h.2⟩⟩
  have hall := hfrom []
  rwa [List.append_nil] at hall

end Pattern

/-! ## Failing whatever comes behind -/

namespace Pattern

/-- Whether a pattern fails on the text behind a place, and on every longer text that begins with
it. -/
def isRefutedAt : Pattern → Place → Bool
  | [], _ => false
  | .exactly t :: rest, p =>
      match p.skipText? t with
      | some q => isRefutedAt rest q
      | none => !p.after.isPrefixOf t
  | .one inClass :: rest, p =>
      match p.after with
      | [] => false
      | c :: after => !inClass c || isRefutedAt rest ⟨c :: p.before, after⟩
  | .run inClass :: rest, p =>
      !(p.skipRun inClass).after.isEmpty && isRefutedAt rest (p.skipRun inClass)
  | .wordEdge :: rest, p => !p.after.isEmpty && (!p.isWordEdge || isRefutedAt rest p)
  | .textStart :: rest, p => !p.before.isEmpty || isRefutedAt rest p
  | .runWith _ _ :: _, _ => false

end Pattern

/-- Two places, of which the second has more text behind it; before them they look the same. -/
structure Place.Extends (rest : Text) (p q : Place) : Prop where
  after : q.after = p.after ++ rest
  before : q.before.head? = p.before.head?

/-- A run that ends within a text ends there in every longer text. -/
theorem dropWhile_append_of_ne_nil {inRun : Char → Bool} {t : Text} (h : t.dropWhile inRun ≠ [])
    (rest : Text) : (t ++ rest).dropWhile inRun = t.dropWhile inRun ++ rest := by
  rw [List.dropWhile_append, if_neg (by simpa using h)]

/-- A run that ends within a text takes nothing of what is behind. -/
theorem takeWhile_append_of_ne_nil {inRun : Char → Bool} {t : Text} (h : t.dropWhile inRun ≠ [])
    (rest : Text) : (t ++ rest).takeWhile inRun = t.takeWhile inRun := by
  have hboth := List.takeWhile_append_dropWhile (p := inRun) (l := t ++ rest)
  rw [dropWhile_append_of_ne_nil h, ← List.append_assoc] at hboth
  have hown := List.append_cancel_right hboth
  exact List.append_cancel_right (hown.trans List.takeWhile_append_dropWhile.symm)

/-- A run ends where the first character behind it is not of the class. -/
theorem span_of_stop {inRun : Char → Bool} {t rest : Text} (ht : ∀ c ∈ t, inRun c = true)
    (hrest : ∀ c ∈ rest.head?, inRun c = false) :
    (t ++ rest).takeWhile inRun = t ∧ (t ++ rest).dropWhile inRun = rest := by
  rw [List.takeWhile_append_of_pos ht, List.dropWhile_append_of_pos ht]
  cases rest with
  | nil => simp
  | cons c rest => simp [hrest c rfl]

namespace Place.Extends

variable {rest : Text} {p q : Place}

/-- Places that correspond are at the beginning together or not at all. -/
theorem isEmpty_before (h : Extends rest p q) : q.before.isEmpty = p.before.isEmpty := by
  have hbefore := h.before
  cases hp : p.before <;> cases hq : q.before <;> simp_all

/-- Whether there is a word boundary is decided by the characters next to it, which are the same. -/
theorem isWordEdge (h : Extends rest p q) (hne : p.after ≠ []) : q.isWordEdge = p.isWordEdge := by
  obtain ⟨c, after, hafter⟩ := List.exists_cons_of_ne_nil hne
  rw [Place.isWordEdge, Place.isWordEdge, h.before, h.after, hafter]
  rfl

/-- A run that ends before the text does ends at corresponding places. -/
theorem skipRun (h : Extends rest p q) {inRun : Char → Bool}
    (hne : (p.skipRun inRun).after ≠ []) : Extends rest (p.skipRun inRun) (q.skipRun inRun) := by
  have hdrop : p.after.dropWhile inRun ≠ [] := hne
  refine ⟨?_, ?_⟩
  · rw [Place.skipRun, h.after]
    exact dropWhile_append_of_ne_nil hdrop rest
  · rw [Place.skipRun, Place.skipRun, h.after, takeWhile_append_of_ne_nil hdrop,
      List.head?_append, List.head?_append, h.before]

end Place.Extends

namespace Text

/-- If a text does not begin with another, nor ends within it, no longer text begins with the
other. -/
theorem dropFront?_extend {t u : Text} (h : dropFront? t u = none)
    (hnone : u.isPrefixOf t = false) (rest : Text) : dropFront? t (u ++ rest) = none := by
  induction t generalizing u with
  | nil => cases h
  | cons c t ih =>
      cases u with
      | nil => cases hnone
      | cons d u =>
          rw [List.cons_append, dropFront?]
          rw [dropFront?] at h
          split
          next hcd =>
            rw [if_pos hcd] at h
            subst hcd
            exact ih h (by simpa using hnone)
          next => rfl

/-- What is behind a text does not keep another from being dropped from its front. -/
theorem dropFront?_append_of_some {t u rest : Text} (h : dropFront? t u = some rest) (more : Text) :
    dropFront? t (u ++ more) = some (rest ++ more) := by
  rw [eq_append_of_dropFront? h, List.append_assoc, dropFront?_append]

end Text

namespace Pattern

/-- **A refuted pattern fails** at every place that has more text behind it. -/
theorem misses_of_isRefutedAt {pattern : Pattern} {p q : Place} {rest : Text}
    (h : pattern.isRefutedAt p = true) (hpq : p.Extends rest q) : pattern.Misses q := by
  induction pattern generalizing p q with
  | nil => cases h
  | cons piece pattern ih =>
      rw [Misses, match?, Option.bind_eq_none_iff]
      intro middle hmiddle
      cases piece with
      | exactly t =>
          rw [isRefutedAt] at h
          obtain ⟨behind, hbehind, rfl⟩ := Option.map_eq_some_iff.1 hmiddle
          rw [hpq.after] at hbehind
          cases hp : Text.dropFront? t p.after with
          | none =>
              rw [Place.skipText?, hp] at h
              rw [Text.dropFront?_extend hp (by simpa using h)] at hbehind
              cases hbehind
          | some own =>
              rw [Place.skipText?, hp] at h
              rw [Text.dropFront?_append_of_some hp] at hbehind
              obtain rfl := Option.some.inj hbehind
              refine ih h ⟨rfl, ?_⟩
              rw [List.head?_append, List.head?_append, hpq.before]
      | one inClass =>
          rw [isRefutedAt] at h
          rw [Piece.match?, Place.skipOne?, hpq.after] at hmiddle
          cases hp : p.after with
          | nil => rw [hp] at h; cases h
          | cons c after =>
              rw [hp] at h hmiddle
              rw [List.cons_append] at hmiddle
              dsimp only at h hmiddle
              split at hmiddle
              next hc =>
                obtain rfl := Option.some.inj hmiddle
                rw [hc] at h
                exact ih h ⟨rfl, rfl⟩
              next => cases hmiddle
      | run inClass =>
          rw [isRefutedAt, Bool.and_eq_true] at h
          obtain rfl := Option.some.inj hmiddle
          exact ih h.2 (hpq.skipRun (by simpa using h.1))
      | wordEdge =>
          rw [isRefutedAt, Bool.and_eq_true] at h
          rw [Piece.match?, hpq.isWordEdge (by simpa using h.1)] at hmiddle
          split at hmiddle
          next hedge =>
            obtain rfl := Option.some.inj hmiddle
            exact ih (by simpa [hedge] using h.2) hpq
          next => cases hmiddle
      | textStart =>
          rw [isRefutedAt] at h
          rw [Piece.match?, hpq.isEmpty_before] at hmiddle
          split at hmiddle
          next hempty =>
            obtain rfl := Option.some.inj hmiddle
            exact ih (by simpa [hempty] using h) hpq
          next => cases hmiddle
      | runWith inClass t => cases h

/-- Whether a pattern is refuted at every place of a text, from what is known of the texts on either
side. -/
def isRefutedAlong (pattern : Pattern) (behind before t : Text) : Bool :=
  (Place.along behind before t).all pattern.isRefutedAt

/-- A pattern that is refuted at every place along a text, in front of what is known, misses
throughout, whatever comes behind. -/
theorem throughout_of_isRefutedAlong {pattern : Pattern} {behind before t farther : Text}
    (h : pattern.isRefutedAlong behind before t = true) (hbefore : before = [] → farther = [])
    (rest : Text) : Throughout pattern.Misses (before ++ farther) t (behind ++ rest) := by
  refine throughout_of_along farther rest fun p hp => ?_
  have hrefuted := List.all_eq_true.1 h p hp
  have hhead : (p.before ++ farther).head? = p.before.head? := by
    by_cases hnil : before = []
    · rw [hbefore hnil, List.append_nil]
    · exact List.head?_append_of_ne_nil _ (Place.before_ne_nil_of_mem_along hp hnil)
  exact misses_of_isRefutedAt hrefuted ⟨rfl, hhead⟩

/-- A pattern that is refuted along a line, whichever line comes next. -/
theorem inLine_of_isRefutedAlong {pattern : Pattern} {t : Text}
    (h : ∀ c ∈ lineStarts, pattern.isRefutedAlong [c] ['\n'] t = true) :
    InLine pattern.Misses t := by
  intro before c rest hbefore hc
  obtain ⟨more, rfl⟩ : ∃ more, before = '\n' :: more := List.head?_eq_some_iff.1 hbefore
  exact throughout_of_isRefutedAlong (h c hc) (by simp) rest

end Pattern

/-! ## Demanding what is not there -/

/-- Characters, and which of them may stand side by side. -/
structure Alphabet where
  letters : List Char
  follows : Char → Char → Bool

namespace Alphabet

variable {a : Alphabet} {t u : Text}

/-- A text of an alphabet. -/
structure Spells (a : Alphabet) (t : Text) : Prop where
  letters : ∀ c ∈ t, c ∈ a.letters
  follows : t.IsChain fun c d => a.follows c d = true

instance (a : Alphabet) (t : Text) : Decidable (a.Spells t) :=
  decidable_of_iff ((∀ c ∈ t, c ∈ a.letters) ∧ t.IsChain fun c d => a.follows c d = true)
    ⟨fun ⟨h1, h2⟩ => ⟨h1, h2⟩, fun ⟨h1, h2⟩ => ⟨h1, h2⟩⟩

/-- Part of a text of an alphabet belongs to the alphabet. -/
theorem Spells.within (h : a.Spells t) (hu : u <:+: t) : a.Spells u :=
  ⟨fun c hc => h.letters c (hu.subset hc), List.IsChain.infix h.follows hu⟩

end Alphabet

namespace Piece

/-- Whether no text of an alphabet meets the piece. -/
def isForeign (a : Alphabet) : Piece → Bool
  | exactly t => !decide (a.Spells t)
  | one inClass => a.letters.all fun c => !inClass c
  | _ => false

/-- A text of the alphabet does not meet a piece that is foreign to it. -/
theorem not_isMetBy_of_isForeign {a : Alphabet} {piece : Piece} (h : piece.isForeign a = true)
    {passed : Text} (hpassed : a.Spells passed) : ¬ piece.IsMetBy passed := by
  cases piece with
  | exactly t =>
      intro ht
      have hspells := hpassed.within ht
      simp [isForeign, hspells] at h
  | one inClass =>
      rintro ⟨c, hc, hclass⟩
      have hnone := List.all_eq_true.1 h c (hpassed.letters c hc)
      rw [hclass] at hnone
      cases hnone
  | _ => cases h

end Piece

namespace Pattern

/-- Whether a pattern demands what no text of an alphabet has. -/
def isForeign (a : Alphabet) (pattern : Pattern) : Bool :=
  pattern.any fun piece => piece.isForeign a

/-- A foreign pattern does not match within a text of the alphabet, up to a character that it cannot
pass or to the end. -/
theorem misses_of_isForeign {a : Alphabet} {pattern : Pattern} (h : pattern.isForeign a = true)
    {gap : Text} (hgap : a.Spells gap) {rest : Text}
    (hrest : ∀ c ∈ rest.head?, pattern.admits c = false) (before : Text) :
    pattern.Misses ⟨before, gap ++ rest⟩ := by
  rw [Misses, Option.eq_none_iff_forall_ne_some]
  intro q hq
  obtain ⟨between, hpassed, hadmits, hmet⟩ := takes_of_match? hq
  obtain ⟨piece, hpiece, hforeign⟩ := List.any_eq_true.1 h
  have hwithin : between <+: gap := by
    have hsplit : between ++ q.after = gap ++ rest := hpassed.after.symm
    rcases List.append_eq_append_iff.1 hsplit with ⟨more, hgap', -⟩ | ⟨more, hbetween, hmore⟩
    · exact ⟨more, hgap'.symm⟩
    · cases more with
      | nil => exact ⟨[], by rw [hbetween]; simp⟩
      | cons c more =>
          have hhead : c ∈ rest.head? := by rw [hmore]; rfl
          have htaken : pattern.admits c = true :=
            hadmits c (by rw [hbetween]; exact List.mem_append_right _ List.mem_cons_self)
          rw [hrest c hhead] at htaken
          cases htaken
  exact Piece.not_isMetBy_of_isForeign hforeign (hgap.within hwithin.isInfix) (hmet piece hpiece)

/-- A pattern without its first piece, if that takes a single character. -/
def body : Pattern → Pattern
  | .one _ :: rest => rest
  | pattern => pattern

/-- A pattern that misses at the next place misses here behind a single character. -/
theorem misses_one {inClass : Char → Bool} {pattern : Pattern} {before after : Text} {c : Char}
    (h : pattern.Misses ⟨c :: before, after⟩) :
    Misses (.one inClass :: pattern) ⟨before, c :: after⟩ := by
  rw [Misses, match?, Piece.match?, Place.skipOne?]
  dsimp only
  split
  · exact h
  · rfl

/-- Behind a single character the rest of the pattern is asked at the next place. -/
theorem throughout_one {inClass : Char → Bool} {pattern : Pattern} {before t rest : Text} {d : Char}
    (h : Throughout pattern.Misses before (t ++ [d]) rest) :
    Throughout (Misses (.one inClass :: pattern)) before t (d :: rest) := by
  intro u v huv hne
  cases v with
  | nil => exact absurd rfl hne
  | cons c v =>
      have hnext := h (u ++ [c]) (v ++ [d]) (by simp [huv]) (by simp)
      rw [List.reverse_append, List.append_assoc v] at hnext
      exact misses_one hnext

/-- Whether its first piece takes a character here or not, a pattern misses if its body does at both
places. -/
theorem misses_of_body {pattern : Pattern} {before after : Text} {c : Char}
    (h : pattern.body.Misses ⟨c :: before, after⟩) (h' : pattern.body.Misses ⟨before, c :: after⟩) :
    pattern.Misses ⟨before, c :: after⟩ := by
  cases pattern with
  | nil => exact h'
  | cons piece rest =>
      cases piece with
      | one inClass => exact misses_one h
      | _ => exact h'

/-- **A pattern whose body is foreign** to an alphabet matches at no place of a text of that
alphabet. -/
theorem throughout_of_isForeign {a : Alphabet} {pattern : Pattern}
    (h : pattern.body.isForeign a = true) {t : Text} (ht : a.Spells t) {rest : Text}
    (hrest : ∀ c ∈ rest.head?, pattern.body.admits c = false) (before : Text) :
    Throughout pattern.Misses before t rest := by
  intro u v huv hne
  cases v with
  | nil => exact absurd rfl hne
  | cons c v =>
      have hall : a.Spells (c :: v) := ht.within ⟨u, [], by rw [huv]; simp⟩
      have hmore : a.Spells v := hall.within ⟨[c], [], by simp⟩
      exact misses_of_body (misses_of_isForeign h hmore hrest _)
        (misses_of_isForeign h hall hrest _)

/-! ## Beginning with a character -/

/-- Whether a pattern cannot begin with a character. -/
def shuns (c : Char) : Pattern → Bool
  | .exactly (d :: _) :: _ => d != c
  | .one inClass :: _ => !inClass c
  | .wordEdge :: rest => shuns c rest
  | _ => false

/-- A pattern misses in front of a character that it shuns. -/
theorem misses_of_shuns {pattern : Pattern} {c : Char} (h : pattern.shuns c = true)
    (before after : Text) : pattern.Misses ⟨before, c :: after⟩ := by
  induction pattern with
  | nil => cases h
  | cons piece rest ih =>
      rw [Misses, match?, Option.bind_eq_none_iff]
      intro middle hmiddle
      cases piece with
      | exactly t =>
          cases t with
          | nil => cases h
          | cons d t =>
              have hne : d ≠ c := by simpa [shuns] using h
              rw [Piece.match?, Place.skipText?, Text.dropFront?, if_neg hne] at hmiddle
              cases hmiddle
      | one inClass =>
          have hclass : inClass c = false := by simpa [shuns] using h
          rw [Piece.match?, Place.skipOne?] at hmiddle
          dsimp only at hmiddle
          rw [hclass] at hmiddle
          cases hmiddle
      | wordEdge =>
          obtain ⟨-, rfl⟩ := Piece.match?_wordEdge_iff.1 hmiddle
          exact ih h
      | run inClass => cases h
      | textStart => cases h
      | runWith inClass t => cases h

/-- A pattern that shuns every character of a text. -/
theorem throughout_of_shuns {pattern : Pattern} {t : Text}
    (h : ∀ c ∈ t, pattern.shuns c = true) (before rest : Text) :
    Throughout pattern.Misses before t rest := by
  intro u v huv hne
  cases v with
  | nil => exact absurd rfl hne
  | cons c v =>
      have hc : c ∈ t := by rw [huv]; exact List.mem_append_right _ List.mem_cons_self
      exact misses_of_shuns (h c hc) _ _

end Pattern

end Scriptwright
