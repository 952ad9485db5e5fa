import Scriptwright.Script.Rules

/-!
# Patterns do not notice a blank more between quotes

The code of a script shows a string as its quotes with blanks between them, and
the number of blanks is the only trace of what the string says.  A reading of
code is `Indifferent` if one blank more behind an opening quote, with another
blank or the closing quote after it, makes no difference to it.

For patterns this comes down to how their pieces treat a quote.  A pattern that
is `Pattern.blind` steps over a quote only together with the blank behind it, or
fails right behind the quote; one that is `Pattern.staysOut` does not match at a
place between quotes.  Both can be read off a pattern, and **the first line on
which such patterns match is indifferent** (`Pattern.indifferent_find?`).
-/

namespace Scriptwright

/-- What comes behind a blank between quotes: another blank, or the closing quote. -/
def ClosesSoon (u : Text) : Prop := u.head? = some ' ' ∨ u.head? = some '"'

/-- A reading of code to which one blank more between quotes makes no difference. -/
def Indifferent {α : Type} (reading : Text → α) : Prop :=
  ∀ front u, ClosesSoon u → reading (front ++ '"' :: ' ' :: u) = reading (front ++ '"' :: u)

namespace Indifferent

variable {α β γ : Type}

/-- What is made of such a reading is one. -/
theorem comp {reading : Text → α} (h : Indifferent reading) (f : α → β) :
    Indifferent fun t => f (reading t) := by
  intro front u hu
  dsimp only
  rw [h front u hu]

/-- So is what is made of two of them. -/
theorem map₂ {reading : Text → α} {other : Text → β} (h : Indifferent reading)
    (h' : Indifferent other) (f : α → β → γ) : Indifferent fun t => f (reading t) (other t) := by
  intro front u hu
  dsimp only
  rw [h front u hu, h' front u hu]

end Indifferent

namespace Text

/-- A text is dropped from the front of the texts that begin with it. -/
theorem dropFront?_append (t u : Text) : dropFront? t (t ++ u) = some u := by
  induction t with
  | nil => rfl
  | cons c t ih => rw [List.cons_append, dropFront?, if_pos rfl, ih]

/-- A text without a given mark ends in front of the first one or does not stand at the beginning. -/
theorem dropFront?_gap {mark : Char} {t : Text} (ht : mark ∉ t) (gap : Text) :
    (∃ rest, gap = t ++ rest) ∨ ∀ w, dropFront? t (gap ++ mark :: w) = none := by
  induction t generalizing gap with
  | nil => exact .inl ⟨gap, rfl⟩
  | cons c t ih =>
      have hc : c ≠ mark := fun heq => ht (heq ▸ List.mem_cons_self)
      have hrest : mark ∉ t := fun hmem => ht (List.mem_cons_of_mem _ hmem)
      cases gap with
      | nil =>
          right
          intro w
          rw [List.nil_append, dropFront?, if_neg hc]
      | cons d gap =>
          by_cases hd : c = d
          · subst hd
            rcases ih hrest gap with ⟨rest, rfl⟩ | hnone
            · exact .inl ⟨rest, rfl⟩
            · right
              intro w
              rw [List.cons_append, dropFront?, if_pos rfl, hnone]
          · right
            intro w
            rw [List.cons_append, dropFront?, if_neg hd]

end Text

/-- The same place of two codes, of which the first has one blank more between quotes: the quotes
are ahead, with some text before them, or behind. -/
inductive Place.Padded (u : Text) : Place → Place → Prop where
  | ahead (before gap : Text) :
      Padded u ⟨before, gap ++ '"' :: ' ' :: u⟩ ⟨before, gap ++ '"' :: u⟩
  | behind (gap before after : Text) :
      Padded u ⟨gap ++ ' ' :: '"' :: before, after⟩ ⟨gap ++ '"' :: before, after⟩

namespace Place

variable {u : Text} {p q : Place}

/-- Corresponding places are on the same line: a blank ends none. -/
theorem Padded.line (h : p.Padded u q) : p.line = q.line := by
  cases h with
  | ahead before gap => rfl
  | behind gap before after =>
      simp [Place.line, Text.lineAfter, Text.feeds, List.count_append]

/-- Which characters lie next to a place, except that a quote may lie there for a blank. -/
theorem Padded.isWordEdge (h : p.Padded u q) : p.isWordEdge = q.isWordEdge := by
  have hspace : isWord ' ' = false := by decide
  have hquote : isWord '"' = false := by decide
  cases h with
  | ahead before gap => cases gap <;> rfl
  | behind gap before after =>
      cases gap with
      | nil => simp [Place.isWordEdge, hspace, hquote]
      | cons c gap => rfl

/-- They are at the beginning together or not at all. -/
theorem Padded.isEmpty_before (h : p.Padded u q) : p.before.isEmpty = q.before.isEmpty := by
  cases h with
  | ahead before gap => rfl
  | behind gap before after => cases gap <;> rfl

/-- A character of the class is part of the run. -/
theorem skipRun_cons_of_pos {inRun : Char → Bool} {c : Char} (h : inRun c = true)
    (before rest : Text) :
    Place.skipRun ⟨before, c :: rest⟩ inRun = Place.skipRun ⟨c :: before, rest⟩ inRun := by
  simp [Place.skipRun, h]

/-- A character that is not in the class ends the run where it is. -/
theorem skipRun_cons_of_neg {inRun : Char → Bool} {c : Char} (h : ¬ inRun c = true)
    (before rest : Text) :
    Place.skipRun ⟨before, c :: rest⟩ inRun = ⟨before, c :: rest⟩ := by
  simp [Place.skipRun, h]

/-- Behind the blank a run takes the same characters in both codes. -/
theorem padded_skipRun_behind (gap before after : Text) (inRun : Char → Bool) :
    (Place.skipRun ⟨gap ++ ' ' :: '"' :: before, after⟩ inRun).Padded u
      (Place.skipRun ⟨gap ++ '"' :: before, after⟩ inRun) := by
  have hmove (w : Text) : (after.takeWhile inRun).reverse ++ (gap ++ w) =
      ((after.takeWhile inRun).reverse ++ gap) ++ w := (List.append_assoc _ _ _).symm
  rw [Place.skipRun, Place.skipRun]
  dsimp only
  rw [hmove, hmove]
  exact .behind _ _ _

/-- A run stops in front of the quotes, or goes on behind them. -/
theorem Padded.skipRun (h : p.Padded u q) {inRun : Char → Bool}
    (hrun : inRun '"' = true → inRun ' ' = true) : (p.skipRun inRun).Padded u (q.skipRun inRun) := by
  cases h with
  | behind gap before after => exact padded_skipRun_behind gap before after inRun
  | ahead before gap =>
      induction gap generalizing before with
      | nil =>
          rw [List.nil_append, List.nil_append]
          by_cases hquote : inRun '"' = true
          · rw [skipRun_cons_of_pos hquote, skipRun_cons_of_pos hquote,
              skipRun_cons_of_pos (hrun hquote)]
            exact padded_skipRun_behind [] before u inRun
          · rw [skipRun_cons_of_neg hquote, skipRun_cons_of_neg hquote]
            exact .ahead before []
      | cons c gap ih =>
          rw [List.cons_append, List.cons_append]
          by_cases hc : inRun c = true
          · rw [skipRun_cons_of_pos hc, skipRun_cons_of_pos hc]
            exact ih (c :: before)
          · rw [skipRun_cons_of_neg hc, skipRun_cons_of_neg hc]
            exact .ahead before (c :: gap)

/-- Given characters without a quote end in front of the quotes, or do not stand there. -/
theorem Padded.skipText? (h : p.Padded u q) {t : Text} (ht : '"' ∉ t) :
    Option.Rel (Padded u) (p.skipText? t) (q.skipText? t) := by
  cases h with
  | behind gap before after =>
      rw [Place.skipText?, Place.skipText?]
      dsimp only
      cases Text.dropFront? t after with
      | none => exact .none
      | some rest =>
          rw [Option.map_some, Option.map_some, ← List.append_assoc, ← List.append_assoc]
          exact .some (.behind _ _ _)
  | ahead before gap =>
      rw [Place.skipText?, Place.skipText?]
      dsimp only
      rcases Text.dropFront?_gap ht gap with ⟨rest, rfl⟩ | hnone
      · rw [List.append_assoc, List.append_assoc, Text.dropFront?_append, Text.dropFront?_append]
        exact .some (.ahead _ rest)
      · rw [hnone, hnone]
        exact .none

/-- One character is read at both places, unless it is the quote itself. -/
theorem Padded.skipOne? (h : p.Padded u q) (inClass : Char → Bool) :
    Option.Rel (Padded u) (p.skipOne? inClass) (q.skipOne? inClass) ∨
      inClass '"' = true ∧ ∃ before, p.skipOne? inClass = some ⟨'"' :: before, ' ' :: u⟩ ∧
        q.skipOne? inClass = some ⟨'"' :: before, u⟩ := by
  have hread {c : Char} {before after before' after' : Text}
      (hmoved : Padded u ⟨c :: before, after⟩ ⟨c :: before', after'⟩) :
      Option.Rel (Padded u) (Place.skipOne? ⟨before, c :: after⟩ inClass)
        (Place.skipOne? ⟨before', c :: after'⟩ inClass) := by
    rw [Place.skipOne?, Place.skipOne?]
    dsimp only
    split
    · exact .some hmoved
    · exact .none
  cases h with
  | behind gap before after =>
      left
      cases after with
      | nil => exact .none
      | cons c after => exact hread (.behind (c :: gap) before after)
  | ahead before gap =>
      cases gap with
      | cons c gap => exact .inl (hread (.ahead (c :: before) gap))
      | nil =>
          rw [List.nil_append, List.nil_append, Place.skipOne?, Place.skipOne?]
          dsimp only
          split
          next hquote => exact .inr ⟨hquote, before, rfl, rfl⟩
          next => exact .inl .none

end Place

/-- Related first steps and related further steps make related results. -/
theorem rel_bind {α β γ δ : Type} {r : α → β → Prop} {r' : γ → δ → Prop} {x : Option α}
    {y : Option β} {f : α → Option γ} {g : β → Option δ} (h : Option.Rel r x y)
    (hfg : ∀ a b, r a b → Option.Rel r' (f a) (g b)) : Option.Rel r' (x.bind f) (y.bind g) := by
  cases h with
  | none => exact .none
  | some hab => exact hfg _ _ hab

/-- Options that are related stay so under functions that keep the relation. -/
theorem rel_map {α β γ δ : Type} {r : α → β → Prop} {r' : γ → δ → Prop} {x : Option α}
    {y : Option β} {f : α → γ} {g : β → δ} (h : Option.Rel r x y)
    (hfg : ∀ a b, r a b → r' (f a) (g b)) : Option.Rel r' (x.map f) (y.map g) := by
  cases h with
  | none => exact .none
  | some hab => exact .some (hfg _ _ hab)

namespace Pattern

/-- Where a blank or a closing quote follows, the pattern does not match. -/
def shuts : Pattern → Bool
  | .exactly (c :: _) :: _ => c != ' ' && c != '"'
  | .one inClass :: _ => !inClass ' ' && !inClass '"'
  | _ => false

/-- The pattern steps over a quote only together with the blank behind it, or fails behind it. -/
def blind : Pattern → Bool
  | [] => true
  | .exactly t :: rest => !t.contains '"' && blind rest
  | .one inClass :: rest => (!inClass '"' || shuts rest) && blind rest
  | .run inClass :: rest => (!inClass '"' || inClass ' ') && blind rest
  | .wordEdge :: rest => blind rest
  | .textStart :: rest => blind rest
  | .runWith _ _ :: _ => false

/-- Between quotes the pattern does not match. -/
def staysOut : Pattern → Bool
  | .exactly (c :: _) :: _ => c != ' '
  | .one inClass :: rest => !inClass ' ' || shuts rest
  | .wordEdge :: _ => true
  | .textStart :: _ => true
  | _ => false

/-- The next character does not belong to a class. -/
theorem skipOne?_eq_none {p : Place} {inClass : Char → Bool}
    (h : ∀ c, p.after.head? = some c → inClass c = false) : p.skipOne? inClass = none := by
  obtain ⟨before, after⟩ := p
  cases after with
  | nil => rfl
  | cons c rest =>
      rw [Place.skipOne?]
      simp [h c rfl]

/-- The next character does not begin a text. -/
theorem skipText?_eq_none {p : Place} {c : Char} {t : Text}
    (h : ∀ d, p.after.head? = some d → c ≠ d) : p.skipText? (c :: t) = none := by
  obtain ⟨before, after⟩ := p
  cases after with
  | nil => rfl
  | cons d rest =>
      rw [Place.skipText?, Text.dropFront?, if_neg (h d rfl)]
      rfl

/-- A pattern that shuts does not match in front of a quote that closes soon. -/
theorem match?_of_shuts {pattern : Pattern} (h : pattern.shuts = true) (before : Text) {u : Text}
    (hu : ClosesSoon u) : pattern.match? ⟨before, u⟩ = none := by
  have hhead : ∀ c, u.head? = some c → c = ' ' ∨ c = '"' := by
    intro c hc
    rcases hu with hu | hu
    · exact .inl (Option.some.inj (hc.symm.trans hu))
    · exact .inr (Option.some.inj (hc.symm.trans hu))
  match pattern, h with
  | .exactly (c :: t) :: rest, h =>
      simp only [shuts, Bool.and_eq_true, bne_iff_ne] at h
      have hnone : Place.skipText? ⟨before, u⟩ (c :: t) = none := by
        refine skipText?_eq_none fun d hd heq => ?_
        subst heq
        exact (hhead c hd).elim h.1 h.2
      rw [match?, Piece.match?, hnone]
      rfl
  | .one inClass :: rest, h =>
      simp only [shuts, Bool.and_eq_true, Bool.not_eq_true'] at h
      have hnone : Place.skipOne? ⟨before, u⟩ inClass = none := by
        refine skipOne?_eq_none fun d hd => ?_
        rcases hhead d hd with rfl | rfl
        · exact h.1
        · exact h.2
      rw [match?, Piece.match?, hnone]
      rfl

/-- **Between quotes nothing matches** that stays out of there. -/
theorem match?_of_staysOut {pattern : Pattern} (h : pattern.staysOut = true) (before : Text)
    {u : Text} (hu : ClosesSoon u) : pattern.match? ⟨'"' :: before, ' ' :: u⟩ = none := by
  match pattern, h with
  | .exactly (c :: t) :: rest, h =>
      have hnone : Place.skipText? ⟨'"' :: before, ' ' :: u⟩ (c :: t) = none := by
        refine skipText?_eq_none ?_
        rintro d ⟨⟩
        simpa [staysOut] using h
      rw [match?, Piece.match?, hnone]
      rfl
  | .one inClass :: rest, h =>
      rw [match?, Piece.match?, Place.skipOne?]
      dsimp only
      by_cases hspace : inClass ' ' = true
      · have hshuts : shuts rest = true := by simpa [staysOut, hspace] using h
        rw [if_pos hspace, Option.bind_some]
        exact match?_of_shuts hshuts _ hu
      · rw [if_neg hspace]
        rfl
  | .wordEdge :: rest, h => rfl
  | .textStart :: rest, h => rfl

/-- **A blind pattern matches at both places or at neither**, and ends at such places again. -/
theorem match?_padded {pattern : Pattern} (h : pattern.blind = true) {u : Text} (hu : ClosesSoon u)
    {p q : Place} (hpq : p.Padded u q) :
    Option.Rel (Place.Padded u) (pattern.match? p) (pattern.match? q) := by
  induction pattern generalizing p q with
  | nil => exact .some hpq
  | cons piece rest ih =>
      -- A piece that leads to such places leaves the matter to the pieces after it.
      have hnext {x y : Option Place} (hxy : Option.Rel (Place.Padded u) x y)
          (hrest : blind rest = true) :
          Option.Rel (Place.Padded u) (x.bind (match? rest)) (y.bind (match? rest)) :=
        rel_bind hxy fun _ _ hxy => ih hrest hxy
      rw [match?, match?]
      cases piece with
      | exactly t =>
          simp only [blind, Bool.and_eq_true, Bool.not_eq_true'] at h
          have ht : '"' ∉ t := by simpa using h.1
          exact hnext (hpq.skipText? ht) h.2
      | one inClass =>
          simp only [blind, Bool.and_eq_true, Bool.or_eq_true, Bool.not_eq_true'] at h
          rw [Piece.match?, Piece.match?]
          rcases hpq.skipOne? inClass with hrel | ⟨hquote, before, hp, hq⟩
          · exact hnext hrel h.2
          · have hshuts : shuts rest = true := h.1.resolve_left (by simp [hquote])
            rw [hp, hq, Option.bind_some, Option.bind_some, match?_of_shuts hshuts _ (.inl rfl),
              match?_of_shuts hshuts _ hu]
            exact .none
      | run inClass =>
          simp only [blind, Bool.and_eq_true, Bool.or_eq_true, Bool.not_eq_true'] at h
          have hrun : inClass '"' = true → inClass ' ' = true :=
            fun hquote => h.1.resolve_left (by simp [hquote])
          exact hnext (.some (hpq.skipRun hrun)) h.2
      | wordEdge =>
          rw [Piece.match?, Piece.match?, hpq.isWordEdge]
          refine hnext ?_ h
          split
          · exact .some hpq
          · exact .none
      | textStart =>
          rw [Piece.match?, Piece.match?, hpq.isEmpty_before]
          refine hnext ?_ h
          split
          · exact .some hpq
          · exact .none
      | runWith inClass t => cases h

/-! ## The first match -/

variable {alternatives : List Pattern}

/-- One of several patterns matches if there is one that does. -/
theorem isSome_matchAny?_iff {p : Place} :
    (matchAny? alternatives p).isSome = true ↔
      ∃ pattern ∈ alternatives, ∃ q, pattern.match? p = some q := by
  rw [matchAny?, List.findSome?_isSome_iff]
  simp only [Option.isSome_iff_exists]

/-- At corresponding places the same ones of several patterns match. -/
theorem isSome_matchAny?_padded (h : ∀ pattern ∈ alternatives, pattern.blind = true) {u : Text}
    (hu : ClosesSoon u) {p q : Place} (hpq : p.Padded u q) :
    (matchAny? alternatives p).isSome = (matchAny? alternatives q).isSome := by
  rw [Bool.eq_iff_iff, isSome_matchAny?_iff, isSome_matchAny?_iff]
  refine exists_congr fun pattern => and_congr_right fun hpattern => ?_
  have hmatch := match?_padded (h pattern hpattern) hu hpq
  cases hx : pattern.match? p <;> cases hy : pattern.match? q <;> rw [hx, hy] at hmatch
  case some.some => simp
  all_goals cases hmatch

/-- Behind the quotes the first match is on the same line. -/
theorem findFrom?_behind (h : ∀ pattern ∈ alternatives, pattern.blind = true)
    (gap before after : Text) :
    (findFrom? alternatives (gap ++ ' ' :: '"' :: before) after).map Place.line =
      (findFrom? alternatives (gap ++ '"' :: before) after).map Place.line := by
  have hclose : ClosesSoon [' '] := .inl rfl
  have hplace (gap after : Text) :
      Place.Padded [' '] ⟨gap ++ ' ' :: '"' :: before, after⟩ ⟨gap ++ '"' :: before, after⟩ :=
    .behind gap before after
  induction after generalizing gap with
  | nil =>
      rw [findFrom?, findFrom?, isSome_matchAny?_padded h hclose (hplace gap [])]
      split
      · exact congrArg some (hplace gap []).line
      · rfl
  | cons c after ih =>
      rw [findFrom?, findFrom?, isSome_matchAny?_padded h hclose (hplace gap (c :: after))]
      split
      · exact congrArg some (hplace gap (c :: after)).line
      · exact ih (c :: gap)

/-- The search passes by the place between quotes. -/
theorem findFrom?_between (hout : ∀ pattern ∈ alternatives, pattern.staysOut = true)
    (before : Text) {u : Text} (hu : ClosesSoon u) :
    findFrom? alternatives ('"' :: before) (' ' :: u) =
      findFrom? alternatives (' ' :: '"' :: before) u := by
  have hnone : (matchAny? alternatives ⟨'"' :: before, ' ' :: u⟩).isSome = false := by
    rw [Bool.eq_false_iff, Ne, isSome_matchAny?_iff]
    rintro ⟨pattern, hpattern, q, hmatch⟩
    rw [match?_of_staysOut (hout pattern hpattern) before hu] at hmatch
    cases hmatch
  rw [findFrom?, hnone]
  rfl

/-- Ahead of the quotes the first match is on the same line. -/
theorem findFrom?_ahead (h : ∀ pattern ∈ alternatives, pattern.blind = true)
    (hout : ∀ pattern ∈ alternatives, pattern.staysOut = true) {u : Text} (hu : ClosesSoon u)
    (before front : Text) :
    (findFrom? alternatives before (front ++ '"' :: ' ' :: u)).map Place.line =
      (findFrom? alternatives before (front ++ '"' :: u)).map Place.line := by
  induction front generalizing before with
  | nil =>
      have hplace : Place.Padded u ⟨before, '"' :: ' ' :: u⟩ ⟨before, '"' :: u⟩ := .ahead before []
      have hbehind := findFrom?_behind h [] before u
      rw [List.nil_append, List.nil_append] at hbehind ⊢
      rw [findFrom?, findFrom?_between hout before hu, isSome_matchAny?_padded h hu hplace,
        findFrom?.eq_2 _ before '"' u]
      split
      · exact congrArg some hplace.line
      · exact hbehind
  | cons c front ih =>
      have hplace : Place.Padded u ⟨before, c :: (front ++ '"' :: ' ' :: u)⟩
          ⟨before, c :: (front ++ '"' :: u)⟩ := .ahead before (c :: front)
      rw [List.cons_append, List.cons_append, findFrom?, findFrom?,
        isSome_matchAny?_padded h hu hplace]
      split
      · exact congrArg some hplace.line
      · exact ih (c :: before)

/-- **The line of the first match is indifferent.** -/
theorem indifferent_find? (h : ∀ pattern ∈ alternatives, pattern.blind = true)
    (hout : ∀ pattern ∈ alternatives, pattern.staysOut = true) :
    Indifferent fun t => (find? alternatives t).map Place.line := by
  intro front u hu
  exact findFrom?_ahead h hout hu [] front

end Pattern

/-! ## Rules -/

/-- The patterns of a rule do not notice a blank more between quotes. -/
def Rule.isBlind (r : Rule) : Bool := r.patterns.all fun pattern => pattern.blind && pattern.staysOut

/-- A rule that is blind reports the same in both codes. -/
theorem Rule.indifferent_check {r : Rule} (h : r.isBlind = true) : Indifferent r.check := by
  have hblind : ∀ pattern ∈ r.patterns, pattern.blind = true ∧ pattern.staysOut = true := by
    simpa [Rule.isBlind] using h
  have hfind := Pattern.indifferent_find? (fun pattern hp => (hblind pattern hp).1)
    fun pattern hp => (hblind pattern hp).2
  have hcheck : r.check = fun t => ((Pattern.find? r.patterns t).map Place.line).map fun line =>
      ⟨r.severity, r.category, r.message, some line⟩ := by
    funext t
    rw [Rule.check, Option.map_map]
    rfl
  rw [hcheck]
  exact hfind.comp _

/-- So do several of them. -/
theorem Rules.indifferent_checkAll {rules : List Rule} (h : rules.all Rule.isBlind = true) :
    Indifferent (Rules.checkAll rules) := by
  induction rules with
  | nil => exact fun _ _ _ => rfl
  | cons r rules ih =>
      rw [List.all_cons, Bool.and_eq_true] at h
      have hcheck : Rules.checkAll (r :: rules) = fun t =>
          (r.check t).toList ++ Rules.checkAll rules t := by
        funext t
        rw [Rules.checkAll, List.filterMap_cons]
        cases r.check t <;> rfl
      rw [hcheck]
      exact (Rule.indifferent_check h.1).map₂ (ih h.2) fun found others => found.toList ++ others

/-- The rules for dangerous code are blind, -/
theorem Rules.isBlind_dangerous : Rules.dangerous.all Rule.isBlind = true := by decide +kernel

/-- those for the dialect, -/
theorem Rules.isBlind_dialect : Rules.dialect.all Rule.isBlind = true := by decide +kernel

/-- the one about objects that are returned, -/
theorem Rules.isBlind_objectReturn : Rules.objectReturn.isBlind = true := by decide +kernel

/-- and the one about the word for what is undefined. -/
theorem Rules.isBlind_undefinedWord : Rules.undefinedWord.isBlind = true := by decide +kernel

end Scriptwright
