import Mathlib.Data.List.Forall2
import Mathlib.Data.List.TakeWhile
import Scriptwright.Proofs.PaddedPatterns
import Scriptwright.Script.Calls

/-!
# Calls and definitions do not notice a blank more between quotes

The names that a code calls and defines are read by `occurrences`, which counts
the characters it has to skip behind a match.  A blank more inside a match
changes that count, so the statement is about places instead: behind a match the
reader goes on where the match ended (`occurrencesAt_found`).

A reader that treats corresponding places alike and matches nothing between
quotes (`BlindReader`) then **has corresponding occurrences in both codes**
(`BlindReader.forall₂_occurrences`), and the calls that nobody defines are the same
(`Calls.indifferent_undefined`).
-/

namespace Scriptwright

/-- From the first place to the second lie the given characters. -/
structure Place.Passed (between : Text) (p q : Place) : Prop where
  after : p.after = between ++ q.after
  before : q.before = between.reverse ++ p.before

namespace Place.Passed

/-- No character lies between a place and itself. -/
theorem refl (p : Place) : Passed [] p p := ⟨rfl, rfl⟩

/-- From the first place to the last lies what is between each and the next. -/
theorem trans {t u : Text} {p q r : Place} (h : Passed t p q) (h' : Passed u q r) :
    Passed (t ++ u) p r where
  after := by rw [h.after, h'.after, List.append_assoc]
  before := by rw [h'.before, h.before, List.reverse_append, List.append_assoc]

/-- A run lies between the place and the end of the run. -/
theorem skipRun (p : Place) (inRun : Char → Bool) :
    Passed (p.after.takeWhile inRun) p (p.skipRun inRun) :=
  ⟨List.takeWhile_append_dropWhile.symm, rfl⟩

end Place.Passed

namespace Text

/-- A text that is dropped from the front of another stood there. -/
theorem eq_append_of_dropFront? {t u rest : Text} (h : dropFront? t u = some rest) :
    u = t ++ rest := by
  induction t generalizing u with
  | nil => exact Option.some.inj h
  | cons c t ih =>
      cases u with
      | nil => cases h
      | cons d u =>
          rw [dropFront?] at h
          split at h
          next hcd => rw [hcd, ih h, List.cons_append]
          next => cases h

end Text

/-! ## What a pattern takes -/

open Place (Passed)

/-- A character of a class is taken exactly if it stands there. -/
theorem Place.skipOne?_eq_some_iff {inClass : Char → Bool} {p q : Place} :
    p.skipOne? inClass = some q ↔ ∃ c, inClass c = true ∧ Passed [c] p q := by
  obtain ⟨before, after⟩ := p
  constructor
  · intro h
    cases after with
    | nil => cases h
    | cons c rest =>
        rw [skipOne?] at h
        dsimp only at h
        split at h
        next hc =>
          obtain rfl := Option.some.inj h
          exact ⟨c, hc, rfl, rfl⟩
        next => cases h
  · rintro ⟨c, hc, hafter, hbefore⟩
    obtain ⟨before', after'⟩ := q
    obtain rfl : after = c :: after' := hafter
    obtain rfl : before' = c :: before := hbefore
    exact if_pos hc

namespace Piece

/-- Whether a piece may take a character. -/
def admits : Piece → Char → Bool
  | exactly t, c => t.contains c
  | one inClass, c => inClass c
  | run inClass, c => inClass c
  | wordEdge, _ => false
  | textStart, _ => false
  | runWith inClass _, c => inClass c

/-- What a match of the piece within a text says about the text. -/
def IsMetBy : Piece → Text → Prop
  | exactly t, passed => t <:+: passed
  | one inClass, passed => ∃ c ∈ passed, inClass c = true
  | _, _ => True

/-- A piece that is met by a part of a text is met by the text. -/
theorem IsMetBy.mono {piece : Piece} {t u : Text} (h : piece.IsMetBy t) (htu : t <:+: u) :
    piece.IsMetBy u := by
  cases piece with
  | exactly w => exact List.IsInfix.trans h htu
  | one inClass =>
      obtain ⟨c, hc, hclass⟩ := h
      exact ⟨c, htu.subset hc, hclass⟩
  | _ => trivial

/-- A word boundary takes no character. -/
theorem match?_wordEdge_iff {p q : Place} :
    wordEdge.match? p = some q ↔ p.isWordEdge = true ∧ p = q := by
  rw [match?]
  split <;> simp_all

/-- What a piece takes, it admits, and meets it. -/
theorem takes_of_match? {piece : Piece} {p q : Place} (h : piece.match? p = some q) :
    ∃ between, Place.Passed between p q ∧ (∀ c ∈ between, piece.admits c = true) ∧
      piece.IsMetBy between := by
  cases piece with
  | exactly t =>
      obtain ⟨rest, hrest, rfl⟩ := Option.map_eq_some_iff.1 h
      refine ⟨t, ⟨Text.eq_append_of_dropFront? hrest, rfl⟩, fun c hc => ?_, List.infix_rfl⟩
      simpa [admits] using hc
  | one inClass =>
      obtain ⟨c, hc, hpassed⟩ := Place.skipOne?_eq_some_iff.1 h
      refine ⟨[c], hpassed, fun d hd => ?_, c, List.mem_singleton_self c, hc⟩
      rw [List.mem_singleton.1 hd]
      exact hc
  | run inClass =>
      obtain rfl := Option.some.inj h
      exact ⟨_, .skipRun p inClass, fun c hc => List.mem_takeWhile_imp hc, trivial⟩
  | wordEdge =>
      obtain ⟨-, rfl⟩ := match?_wordEdge_iff.1 h
      exact ⟨[], .refl p, fun c hc => absurd hc List.not_mem_nil, trivial⟩
  | textStart =>
      rw [Piece.match?] at h
      split at h
      · obtain rfl := Option.some.inj h
        exact ⟨[], .refl p, fun c hc => absurd hc List.not_mem_nil, trivial⟩
      · cases h
  | runWith inClass t =>
      rw [Piece.match?] at h
      split at h
      · obtain rfl := Option.some.inj h
        exact ⟨_, .skipRun p inClass, fun c hc => List.mem_takeWhile_imp hc, trivial⟩
      · cases h

end Piece

namespace Pattern

/-- Whether a pattern may take a character. -/
def admits (pattern : Pattern) (c : Char) : Bool := pattern.any fun piece => piece.admits c

/-- **What a pattern takes**, its pieces admit, and it meets all of them. -/
theorem takes_of_match? {pattern : Pattern} {p q : Place} (h : pattern.match? p = some q) :
    ∃ between, Place.Passed between p q ∧ (∀ c ∈ between, pattern.admits c = true) ∧
      ∀ piece ∈ pattern, piece.IsMetBy between := by
  induction pattern generalizing p with
  | nil =>
      obtain rfl := Option.some.inj h
      exact ⟨[], .refl p, fun c hc => absurd hc List.not_mem_nil,
        fun piece hpiece => absurd hpiece List.not_mem_nil⟩
  | cons piece rest ih =>
      obtain ⟨middle, hpiece, hrest⟩ := Option.bind_eq_some_iff.1 h
      obtain ⟨t, ht, hadmits, hmet⟩ := Piece.takes_of_match? hpiece
      obtain ⟨u, hu, hadmits', hmet'⟩ := ih hrest
      refine ⟨t ++ u, ht.trans hu, fun c hc => ?_, fun other hother => ?_⟩
      · rw [admits, List.any_cons, Bool.or_eq_true]
        rcases List.mem_append.1 hc with hc | hc
        · exact .inl (hadmits c hc)
        · exact .inr (hadmits' c hc)
      · rcases List.mem_cons.1 hother with rfl | hother
        · exact hmet.mono List.infix_append_left
        · exact (hmet' other hother).mono List.infix_append_right

end Pattern

/-- A name is read where it stands, and has a character at least. -/
theorem passed_of_takeName? {p q : Place} {name : Text} (h : takeName? p = some (name, q)) :
    Passed name p q ∧ name ≠ [] := by
  obtain ⟨before, after⟩ := p
  cases after with
  | nil => cases h
  | cons c rest =>
      rw [takeName?] at h
      dsimp only at h
      split at h
      next =>
        obtain ⟨rfl, rfl⟩ := Prod.mk.inj (Option.some.inj h)
        refine ⟨?_, List.cons_ne_nil _ _⟩
        have hfirst : Passed [c] ⟨before, c :: rest⟩ ⟨c :: before, rest⟩ := ⟨rfl, rfl⟩
        exact hfirst.trans (.skipRun ⟨c :: before, rest⟩ extendsCallName)
      next => cases h

/-! ## Occurrences -/

variable {α : Type} {reader : Place → Option (α × Place)}

/-- Characters that are to be skipped are skipped, and the search goes on behind them. -/
theorem occurrencesFrom_skip (between before rest : Text) :
    occurrencesFrom reader between.length before (between ++ rest) =
      occurrencesFrom reader 0 (between.reverse ++ before) rest := by
  induction between generalizing before with
  | nil => rfl
  | cons c between ih =>
      rw [List.cons_append, List.length_cons, occurrencesFrom, ih, List.reverse_cons,
        List.append_assoc]
      rfl

/-- The matches from a place on. -/
def occurrencesAt (reader : Place → Option (α × Place)) (p : Place) : List (Place × α) :=
  occurrencesFrom reader 0 p.before p.after

/-- Behind a match the reader goes on where the match ended. -/
theorem occurrencesAt_found {p q : Place} {found : α} (h : reader p = some (found, q))
    {between : Text} (hne : between ≠ []) (hpassed : Passed between p q) :
    occurrencesAt reader p = (p, found) :: occurrencesAt reader q := by
  obtain ⟨before, after⟩ := p
  cases between with
  | nil => exact absurd rfl hne
  | cons c between =>
      have hafter : after = c :: (between ++ q.after) := hpassed.after
      subst hafter
      have hskip : (between ++ q.after).length - q.after.length = between.length := by
        rw [List.length_append]
        omega
      rw [occurrencesAt, occurrencesAt, occurrencesFrom, h]
      dsimp only
      rw [hskip, occurrencesFrom_skip, hpassed.before, List.reverse_cons, List.append_assoc]
      rfl

/-- Where nothing is read the search goes on at the next place. -/
theorem occurrencesAt_none {before rest : Text} {c : Char}
    (h : reader ⟨before, c :: rest⟩ = none) :
    occurrencesAt reader ⟨before, c :: rest⟩ = occurrencesAt reader ⟨c :: before, rest⟩ := by
  rw [occurrencesAt, occurrencesFrom, h]
  rfl

/-- A reader that moves on when it matches, treats corresponding places alike, up to a relation on
what it reads, and matches nothing between quotes. -/
structure BlindReader (same : α → α → Prop) (reader : Place → Option (α × Place)) : Prop where
  advances : ∀ p q found, reader p = some (found, q) → ∃ between, between ≠ [] ∧ Passed between p q
  padded : ∀ u p q, ClosesSoon u → p.Padded u q →
    Option.Rel (fun x y => same x.1 y.1 ∧ x.2.Padded u y.2) (reader p) (reader q)
  between : ∀ before u, ClosesSoon u → reader ⟨'"' :: before, ' ' :: u⟩ = none

namespace BlindReader

variable {same : α → α → Prop} {u : Text} {p q : Place}

/-- Where such a reader does not match, it goes on at corresponding places. -/
theorem pass (h : BlindReader same reader) (hu : ClosesSoon u) (hpq : p.Padded u q)
    (hp : reader p = none) (hq : reader q = none) :
    (occurrencesAt reader p = [] ∧ occurrencesAt reader q = []) ∨
      ∃ p' q', Place.Padded u p' q' ∧ p'.after.length < p.after.length ∧
        occurrencesAt reader p = occurrencesAt reader p' ∧
          occurrencesAt reader q = occurrencesAt reader q' := by
  cases hpq with
  | behind gap before after =>
      cases after with
      | nil => exact .inl ⟨rfl, rfl⟩
      | cons c after =>
          exact .inr ⟨_, _, .behind (c :: gap) before after, Nat.lt_succ_self _,
            occurrencesAt_none hp, occurrencesAt_none hq⟩
  | ahead before gap =>
      cases gap with
      | nil =>
          have hlong := (occurrencesAt_none hp).trans (occurrencesAt_none (h.between before u hu))
          have hshorter : u.length < ('"' :: ' ' :: u).length := by
            rw [List.length_cons, List.length_cons]
            omega
          exact .inr ⟨_, _, .behind [] before u, hshorter, hlong, occurrencesAt_none hq⟩
      | cons c gap =>
          exact .inr ⟨_, _, .ahead (c :: before) gap, Nat.lt_succ_self _,
            occurrencesAt_none hp, occurrencesAt_none hq⟩

/-- From corresponding places on there are corresponding occurrences. -/
theorem forall₂_occurrencesAt (h : BlindReader same reader) (hu : ClosesSoon u)
    (hpq : p.Padded u q) :
    List.Forall₂ (fun x y => x.1.Padded u y.1 ∧ same x.2 y.2)
      (occurrencesAt reader p) (occurrencesAt reader q) := by
  induction hlen : p.after.length using Nat.strongRecOn generalizing p q with
  | ind n ih =>
      have hrel := h.padded u p q hu hpq
      cases hp : reader p with
      | none =>
          cases hq : reader q with
          | some y => rw [hp, hq] at hrel; cases hrel
          | none =>
              rcases h.pass hu hpq hp hq with ⟨hnil, hnil'⟩ | ⟨p', q', hnext, hlt, hocc, hocc'⟩
              · rw [hnil, hnil']
                exact .nil
              · rw [hocc, hocc']
                exact ih _ (hlen ▸ hlt) hnext rfl
      | some x =>
          obtain ⟨found, p'⟩ := x
          cases hq : reader q with
          | none => rw [hp, hq] at hrel; cases hrel
          | some y =>
              obtain ⟨found', q'⟩ := y
              rw [hp, hq] at hrel
              cases hrel with
              | some hboth =>
                  obtain ⟨between, hne, hpassed⟩ := h.advances _ _ _ hp
                  obtain ⟨between', hne', hpassed'⟩ := h.advances _ _ _ hq
                  have hlt : p'.after.length < n := by
                    have hpositive := List.length_pos_of_ne_nil hne
                    rw [← hlen, hpassed.after, List.length_append]
                    omega
                  rw [occurrencesAt_found hp hne hpassed, occurrencesAt_found hq hne' hpassed']
                  exact .cons ⟨hpq, hboth.1⟩ (ih _ hlt hboth.2 rfl)

/-- **A blind reader has corresponding occurrences in both codes.** -/
theorem forall₂_occurrences (h : BlindReader same reader) (front : Text) (hu : ClosesSoon u) :
    List.Forall₂ (fun x y => x.1.Padded u y.1 ∧ same x.2 y.2)
      (occurrences reader (front ++ '"' :: ' ' :: u)) (occurrences reader (front ++ '"' :: u)) :=
  h.forall₂_occurrencesAt hu (.ahead [] front)

/-- What a reader reads without regard to the quotes is the same in both codes. -/
theorem map_found {reader : Place → Option (α × Place)} (h : BlindReader (· = ·) reader) :
    Indifferent fun t => (occurrences reader t).map Prod.snd := by
  intro front u hu
  rw [← List.forall₂_eq_eq_eq, List.forall₂_map_left_iff, List.forall₂_map_right_iff]
  exact (h.forall₂_occurrences front hu).imp fun x y hxy => hxy.2

end BlindReader

/-! ## Names -/

/-- Up to a mark that ends a run, what stands behind the mark does not matter. -/
theorem takeWhile_gap {p : Char → Bool} {mark : Char} (h : p mark = false) (gap w : Text) :
    (gap ++ mark :: w).takeWhile p = gap.takeWhile p := by
  induction gap with
  | nil => simp [h]
  | cons c gap ih =>
      rw [List.cons_append, List.takeWhile_cons, List.takeWhile_cons, ih]

/-- No name has a quote in it. -/
theorem takeName?_padded {u : Text} {p q : Place} (hpq : p.Padded u q) :
    Option.Rel (fun x y => x.1 = y.1 ∧ x.2.Padded u y.2) (takeName? p) (takeName? q) := by
  have hquote : extendsCallName '"' = false := by decide
  have hrun : extendsCallName '"' = true → extendsCallName ' ' = true := by decide
  cases hpq with
  | behind gap before after =>
      cases after with
      | nil => exact .none
      | cons c after =>
          rw [takeName?, takeName?]
          dsimp only
          split
          · exact .some ⟨rfl, Place.padded_skipRun_behind (c :: gap) before after _⟩
          · exact .none
  | ahead before gap =>
      cases gap with
      | nil => exact .none
      | cons c gap =>
          rw [takeName?, takeName?]
          dsimp only [List.cons_append]
          split
          · refine .some ⟨?_, (Place.Padded.ahead (c :: before) gap).skipRun hrun⟩
            rw [takeWhile_gap hquote, takeWhile_gap hquote]
          · exact .none

/-- Options that are related one by one have related first members. -/
theorem rel_findSome? {α β γ : Type} {r : β → γ → Prop} {l : List α} {f : α → Option β}
    {g : α → Option γ} (h : ∀ a ∈ l, Option.Rel r (f a) (g a)) :
    Option.Rel r (l.findSome? f) (l.findSome? g) := by
  induction l with
  | nil => exact .none
  | cons a l ih =>
      have hfirst := h a List.mem_cons_self
      rw [List.findSome?_cons, List.findSome?_cons]
      cases hf : f a <;> cases hg : g a <;> rw [hf, hg] at hfirst <;> cases hfirst
      · exact ih fun b hb => h b (List.mem_cons_of_mem _ hb)
      next hab => exact .some hab

namespace Calls

/-- Patterns between which a name can be read without regard to quotes. -/
def areBlind (lead tail : Pattern) : Bool :=
  lead.blind && tail.blind && (lead.isEmpty || lead.staysOut)

/-- A name that is read moves the reader on. -/
theorem readNamed_advances {lead tail : Pattern} {p q : Place} {name : Text}
    (h : readNamed lead tail p = some (name, q)) :
    ∃ between, between ≠ [] ∧ Passed between p q := by
  obtain ⟨p₁, hlead, h⟩ := Option.bind_eq_some_iff.1 h
  obtain ⟨⟨name', p₂⟩, hname, h⟩ := Option.bind_eq_some_iff.1 h
  obtain ⟨p₃, htail, heq⟩ := Option.map_eq_some_iff.1 h
  obtain ⟨rfl, rfl⟩ := Prod.mk.inj heq
  obtain ⟨t, ht, -⟩ := Pattern.takes_of_match? hlead
  obtain ⟨hpassed, hne⟩ := passed_of_takeName? hname
  obtain ⟨v, hv, -⟩ := Pattern.takes_of_match? htail
  exact ⟨t ++ name' ++ v, by simp [hne], (ht.trans hpassed).trans hv⟩

/-- **A name between blind patterns** is read without regard to the quotes. -/
theorem blindReader_readNamed {lead tail : Pattern} (h : areBlind lead tail = true) :
    BlindReader (· = ·) (readNamed lead tail) := by
  simp only [areBlind, Bool.and_eq_true, Bool.or_eq_true, List.isEmpty_iff] at h
  obtain ⟨⟨hlead, htail⟩, hout⟩ := h
  refine ⟨fun p q name => readNamed_advances, fun u p q hu hpq => ?_, fun before u hu => ?_⟩
  · refine rel_bind (Pattern.match?_padded hlead hu hpq) fun p₁ q₁ hpq₁ => ?_
    refine rel_bind (takeName?_padded hpq₁) fun x y hxy => ?_
    exact rel_map (Pattern.match?_padded htail hu hxy.2) fun p₃ q₃ hpq₃ => ⟨hxy.1, hpq₃⟩
  · rw [readNamed]
    rcases hout with rfl | hout
    · rfl
    · rw [Pattern.match?_of_staysOut hout before hu]
      rfl

/-- So calls are read, -/
theorem blindReader_readCall : BlindReader (· = ·) readCall := blindReader_readNamed (by decide)

/-- declarations of functions, -/
theorem blindReader_readDeclared : BlindReader (· = ·) readDeclared :=
  blindReader_readNamed (by decide +kernel)

/-- and functions that are assigned. -/
theorem blindReader_readAssigned : BlindReader (· = ·) readAssigned := by
  have hkeyword : ∀ keyword ∈ ["var", "let", "const"],
      areBlind (.wordEdge :: .word keyword :: Pattern.someBlanks)
        [.blanks, .char '=', .blanks, .word "function", .wordEdge] = true := by decide +kernel
  refine ⟨fun p q name h => ?_, fun u p q hu hpq => ?_, fun before u hu => ?_⟩
  · obtain ⟨keyword, -, hread⟩ := List.exists_of_findSome?_eq_some h
    exact readNamed_advances hread
  · refine rel_findSome? fun keyword hmem => ?_
    exact (blindReader_readNamed (hkeyword keyword hmem)).padded u p q hu hpq
  · refine List.findSome?_eq_none_iff.2 fun keyword hmem => ?_
    exact (blindReader_readNamed (hkeyword keyword hmem)).between before u hu

/-! ## Parameters -/

/-- Whether a trimmed text is a name. -/
def isParameter (name : Text) : Bool := !name.isEmpty && name.all isNameChar

/-- Trimming takes nothing but blanks. -/
theorem mem_trim {c : Char} (hc : isBlank c = false) {t : Text} (h : c ∈ t) : c ∈ Text.trim t := by
  have hdrop {u : Text} (hu : c ∈ u) : c ∈ u.dropWhile isBlank := by
    rw [← List.takeWhile_append_dropWhile (p := isBlank) (l := u)] at hu
    rcases List.mem_append.1 hu with hu | hu
    · rw [List.mem_takeWhile_imp hu] at hc
      cases hc
    · exact hu
  rw [Text.trim, Text.trimEnd, Text.trimStart, List.mem_reverse]
  exact hdrop (List.mem_reverse.2 (hdrop h))

/-- A text with a quote in it is no name. -/
theorem isParameter_of_quote {t : Text} (h : '"' ∈ t) : isParameter (Text.trim t) = false := by
  have hquote : isNameChar '"' = false := by decide
  have hall : (Text.trim t).all isNameChar = false := by
    rw [List.all_eq_false]
    exact ⟨'"', mem_trim (by decide) h, by simp [hquote]⟩
  rw [isParameter, hall, Bool.and_false]

/-- The same text, or texts of which neither is a name. -/
def SameSegment (s t : Text) : Prop := s = t ∨ ('"' ∈ s ∧ '"' ∈ t)

/-- A character in front of both does not make segments differ. -/
theorem forall₂_modifyHead {l l' : List Text} (h : List.Forall₂ SameSegment l l') (c : Char) :
    List.Forall₂ SameSegment (l.modifyHead (List.cons c)) (l'.modifyHead (List.cons c)) := by
  cases h with
  | nil => exact .nil
  | cons hfirst hrest =>
      refine .cons ?_ hrest
      rcases hfirst with rfl | ⟨hs, ht⟩
      · exact .inl rfl
      · exact .inr ⟨List.mem_cons_of_mem c hs, List.mem_cons_of_mem c ht⟩

/-- At a comma, both lists are split into segments that differ in one blank behind a quote at
most. -/
theorem forall₂_splitOn (gap w : Text) :
    List.Forall₂ SameSegment ((gap ++ '"' :: ' ' :: w).splitOn ',')
      ((gap ++ '"' :: w).splitOn ',') := by
  have hquote : ('"' == ',') = false := by decide
  have hspace : (' ' == ',') = false := by decide
  induction gap with
  | nil =>
      simp only [List.nil_append, List.splitOn_cons_eq_if_modifyHead, hquote, hspace,
        Bool.false_eq_true, if_false]
      cases w.splitOn ',' with
      | nil => exact .nil
      | cons first rest =>
          exact .cons (.inr ⟨List.mem_cons_self, List.mem_cons_self⟩)
            (List.forall₂_same.2 fun _ _ => .inl rfl)
  | cons c gap ih =>
      rw [List.cons_append, List.cons_append, List.splitOn_cons_eq_if_modifyHead,
        List.splitOn_cons_eq_if_modifyHead]
      split
      · exact .cons (.inl rfl) ih
      · exact forall₂_modifyHead ih c

/-- Such segments have the same parameters among them: a parameter has no quote. -/
theorem filter_sameSegment {l l' : List Text} (h : List.Forall₂ SameSegment l l') :
    (l.map Text.trim).filter isParameter = (l'.map Text.trim).filter isParameter := by
  induction h with
  | nil => rfl
  | cons hfirst _ ih =>
      rw [List.map_cons, List.map_cons]
      rcases hfirst with rfl | ⟨hs, ht⟩
      · rw [List.filter_cons, List.filter_cons, ih]
      · rw [List.filter_cons_of_neg (by simp [isParameter_of_quote hs]),
          List.filter_cons_of_neg (by simp [isParameter_of_quote ht]), ih]

/-- Two lists of parameters with the same names in them. -/
def SameParameters (t u : Text) : Prop := parameterNames t = parameterNames u

/-- So the texts of corresponding lists hold the same parameters. -/
theorem sameParameters_padded {u : Text} {p q : Place} (hpq : p.Padded u q) :
    SameParameters (p.after.takeWhile (· != ')')) (q.after.takeWhile (· != ')')) := by
  cases hpq with
  | behind gap before after => rfl
  | ahead before gap =>
      dsimp only
      rw [List.takeWhile_append, List.takeWhile_append]
      split
      · show SameParameters (gap ++ '"' :: ' ' :: u.takeWhile (· != ')'))
          (gap ++ '"' :: u.takeWhile (· != ')'))
        exact filter_sameSegment (forall₂_splitOn gap _)
      · rfl

/-- Lists of parameters are read without regard to the quotes, up to segments that are none. -/
theorem blindReader_readParameters : BlindReader SameParameters readParameters := by
  have hlead : Pattern.blind [.wordEdge, .word "function", .wordEdge, .run (· != '('), .char '('] =
      true := by decide +kernel
  have hparameters : Pattern.blind [.run (· != ')'), .char ')'] = true := by decide
  refine ⟨fun p q found h => ?_, fun u p q hu hpq => ?_, fun before u hu => ?_⟩
  · obtain ⟨p₁, hlead, h⟩ := Option.bind_eq_some_iff.1 h
    obtain ⟨p₂, hclose, heq⟩ := Option.map_eq_some_iff.1 h
    obtain ⟨-, rfl⟩ := Prod.mk.inj heq
    obtain ⟨t, ht, -⟩ := Pattern.takes_of_match? hlead
    obtain ⟨p₃, hrun, hclose⟩ := Option.bind_eq_some_iff.1 hclose
    obtain ⟨p₄, hone, hend⟩ := Option.bind_eq_some_iff.1 hclose
    obtain rfl := Option.some.inj hend
    obtain ⟨v, hv, -⟩ := Piece.takes_of_match? hrun
    obtain ⟨c, -, hc⟩ := Place.skipOne?_eq_some_iff.1 hone
    exact ⟨t ++ v ++ [c], by simp, (ht.trans hv).trans hc⟩
  · refine rel_bind (Pattern.match?_padded hlead hu hpq) fun p₁ q₁ hpq₁ => ?_
    exact rel_map (Pattern.match?_padded hparameters hu hpq₁) fun p₂ q₂ hpq₂ =>
      ⟨sameParameters_padded hpq₁, hpq₂⟩
  · rw [readParameters, Pattern.match?_of_staysOut rfl before hu]
    rfl

/-! ## Free calls -/

/-- **The names a code defines.** -/
theorem indifferent_definedNames : Indifferent definedNames := by
  have hparameters : Indifferent fun code =>
      (occurrences readParameters code).flatMap fun found => parameterNames found.2 := by
    intro front u hu
    have hboth := blindReader_readParameters.forall₂_occurrences front hu
    have hnames : List.Forall₂ (· = ·)
        ((occurrences readParameters (front ++ '"' :: ' ' :: u)).map fun x => parameterNames x.2)
        ((occurrences readParameters (front ++ '"' :: u)).map fun x => parameterNames x.2) := by
      rw [List.forall₂_map_left_iff, List.forall₂_map_right_iff]
      exact hboth.imp fun x y hxy => hxy.2
    rw [List.forall₂_eq_eq_eq] at hnames
    dsimp only
    rw [List.flatMap_def, List.flatMap_def, hnames]
  exact (blindReader_readDeclared.map_found.map₂ blindReader_readAssigned.map_found (· ++ ·)).map₂
    hparameters (· ++ ·)

/-- The keyword of a function has neither a quote nor a blank in it. -/
theorem endsInFunction_padded (gap before : Text) :
    endsInFunction (gap ++ ' ' :: '"' :: before) = endsInFunction (gap ++ '"' :: before) := by
  have hquote : '"' ∉ "function".toList.reverse := by decide
  have hspace : ' ' ∉ "function".toList.reverse := by decide
  rw [endsInFunction, endsInFunction]
  rcases Text.dropFront?_gap hquote gap with ⟨rest, rfl⟩ | hnone
  · rw [List.append_assoc, List.append_assoc, Text.dropFront?_append, Text.dropFront?_append]
    cases rest with
    | nil => rfl
    | cons c rest => rfl
  · rcases Text.dropFront?_gap hspace gap with ⟨rest, rfl⟩ | hnone'
    · have hfound := hnone before
      rw [List.append_assoc, Text.dropFront?_append] at hfound
      cases hfound
    · rw [hnone, hnone']

/-- Whether a call is a free one does not depend on the blank. -/
theorem isFreeAt_padded {u : Text} {p q : Place} (hpq : p.Padded u q) (name : Text) :
    isFreeAt p name = isFreeAt q name := by
  cases hpq with
  | ahead before gap => rfl
  | behind gap before after =>
      have hspace : isNameChar ' ' = false := by decide
      have hquote : isNameChar '"' = false := by decide
      have hhead : (gap ++ ' ' :: '"' :: before).head?.any isNameChar =
          (gap ++ '"' :: before).head?.any isNameChar := by
        cases gap with
        | nil => simp [hspace, hquote]
        | cons c gap => rfl
      have hblank : (' ' :: '"' :: before).dropWhile isBlank = '"' :: before := rfl
      have hmark : ('"' :: before).dropWhile isBlank = '"' :: before := rfl
      simp only [isFreeAt, hhead, List.dropWhile_append, hblank, hmark]
      split
      next => rfl
      next hnonblank =>
        have hne : gap.dropWhile isBlank ≠ [] := fun heq => hnonblank (by rw [heq]; rfl)
        obtain ⟨c, rest, hrest⟩ := List.exists_cons_of_ne_nil hne
        rw [endsInFunction_padded, hrest]
        rfl

/-- **The free calls of a code**, with their lines. -/
theorem indifferent_allFree : Indifferent allFree := by
  intro front u hu
  have hboth := blindReader_readCall.forall₂_occurrences front hu
  rw [allFree, allFree]
  generalize occurrences readCall (front ++ '"' :: ' ' :: u) = l at hboth
  generalize occurrences readCall (front ++ '"' :: u) = l' at hboth
  induction hboth with
  | nil => rfl
  | @cons x y _ _ hxy _ ih =>
      obtain ⟨hplace, hname⟩ := hxy
      rw [List.filter_cons, List.filter_cons, isFreeAt_padded hplace, hname]
      split
      · rw [List.map_cons, List.map_cons, hplace.line, hname, ih]
      · exact ih

/-- **Calls of what nobody defines.** -/
theorem indifferent_undefined (known : NameSet) : Indifferent fun code => undefined code known := by
  intro front u hu
  have hfree := indifferent_allFree front u hu
  have hdefined := indifferent_definedNames front u hu
  simp only [undefined, free, hfree, hdefined]

end Calls

end Scriptwright
