import Scriptwright.Proofs.FragmentCode

/-!
# What a pattern matches

A piece of a pattern matches the text between two places exactly if the text is of the
kind that the piece asks for (`Piece.match?_run_iff` and its neighbours), and a name is
read exactly where it stands and ends (`takeName?_eq_some_iff`).

The matches of a reader do not overlap.  A match is therefore found unless one that begins
earlier reaches beyond its place (`exists_occurrence_reaching`), and **a match that none
reaches is found** (`mem_occurrences_of_read`).
-/

namespace Scriptwright

open Place (Passed)

/-- The text that a place splits. -/
def Place.whole (p : Place) : Text := p.before.reverse ++ p.after

/-! ## Occurrences that reach a place -/

section

variable {α : Type} {reader : Place → Option (α × Place)}

/-- An occurrence is a place of the text at which the reader reads. -/
theorem read_of_mem_occurrences {t : Text} {p : Place} {found : α}
    (h : (p, found) ∈ occurrences reader t) : p.whole = t ∧ ∃ q, reader p = some (found, q) := by
  obtain ⟨⟨u, v, rfl, -, rfl⟩, hread⟩ := read_of_mem_occurrencesFrom h
  exact ⟨by simp [Place.whole], hread⟩

/-- **A match is an occurrence, or one that begins earlier reaches beyond its place.** -/
theorem exists_occurrence_reaching
    (hadvances : ∀ p q found, reader p = some (found, q) →
      ∃ between, between ≠ [] ∧ Passed between p q)
    {p : Place} {match' : α × Place} (h : reader p = some match') :
    ∃ front back found q between, p.before.reverse = front ++ back ∧
      (⟨front.reverse, back ++ p.after⟩, found) ∈ occurrences reader p.whole ∧
      reader ⟨front.reverse, back ++ p.after⟩ = some (found, q) ∧
      Passed between ⟨front.reverse, back ++ p.after⟩ q ∧ back.length < between.length := by
  have hplace : reader ⟨p.before.reverse.reverse ++ [], p.after⟩ = some match' := by
    rw [List.reverse_reverse, List.append_nil]
    exact h
  obtain ⟨front, back, found, q, between, hsplit, hmem, hread, hpassed, hlt⟩ :=
    exists_occurrence_covering hadvances hplace
  rw [List.append_nil] at hmem hread hpassed
  exact ⟨front, back, found, q, between, hsplit, hmem, hread, hpassed, hlt⟩

/-- A match that none which begins earlier reaches beyond is found. -/
theorem mem_occurrences_of_read
    (hadvances : ∀ p q found, reader p = some (found, q) →
      ∃ between, between ≠ [] ∧ Passed between p q)
    {p q : Place} {found : α} (h : reader p = some (found, q))
    (halone : ∀ before back found' q' between, p.before = back.reverse ++ before →
      reader ⟨before, back ++ p.after⟩ = some (found', q') →
      Passed between ⟨before, back ++ p.after⟩ q' → back ≠ [] → between.length ≤ back.length) :
    found ∈ (occurrences reader p.whole).map Prod.snd := by
  obtain ⟨front, back, found', q', between, hsplit, hmem, hread, hpassed, hlt⟩ :=
    exists_occurrence_reaching hadvances h
  have hbefore : p.before = back.reverse ++ front.reverse := by
    rw [← List.reverse_append, ← hsplit, List.reverse_reverse]
  cases back with
  | nil =>
      rw [List.nil_append, ← List.nil_append front.reverse, ← List.reverse_nil, ← hbefore] at hread
      obtain ⟨rfl, -⟩ := Prod.mk.inj (Option.some.inj (hread.symm.trans h))
      exact List.mem_map.2 ⟨_, hmem, rfl⟩
  | cons c back =>
      have hle := halone _ _ _ _ _ hbefore hread hpassed (List.cons_ne_nil c back)
      exact absurd hlt (Nat.not_lt.2 hle)

end

/-! ## What the pieces of a pattern match -/

namespace Place.Passed

variable {t u : Text} {p q r : Place}

/-- Where one ends after given characters is determined by where one begins. -/
theorem eq (h : Passed t p q) (h' : Passed t p r) : q = r := by
  have hafter : q.after = r.after := List.append_cancel_left (h.after.symm.trans h'.after)
  have hbefore : q.before = r.before := h.before.trans h'.before.symm
  cases q
  cases r
  exact Place.mk.injEq .. ▸ ⟨hbefore, hafter⟩

/-- Passing a text is passing its parts one after the other. -/
theorem append_iff : Passed (t ++ u) p q ↔ ∃ m, Passed t p m ∧ Passed u m q := by
  constructor
  · intro h
    refine ⟨⟨t.reverse ++ p.before, u ++ q.after⟩, ⟨?_, rfl⟩, ⟨rfl, ?_⟩⟩
    · rw [h.after, List.append_assoc]
    · rw [h.before, List.reverse_append, List.append_assoc]
  · rintro ⟨m, ht, hu⟩
    exact ht.trans hu

/-- The characters between two places. -/
theorem text_eq (h : Passed t p q) (h' : Passed u p q) : t = u :=
  List.append_cancel_right (h.after.symm.trans h'.after)

end Place.Passed

namespace Piece

variable {p q : Place}

/-- Given characters are matched where they stand. -/
theorem match?_exactly_iff {t : Text} : (exactly t).match? p = some q ↔ Passed t p q := by
  rw [match?, Place.skipText?]
  constructor
  · intro h
    obtain ⟨rest, hrest, rfl⟩ := Option.map_eq_some_iff.1 h
    exact ⟨Text.eq_append_of_dropFront? hrest, rfl⟩
  · intro h
    rw [h.after, Text.dropFront?_append, Option.map_some, ← h.before]

/-- A class takes one character that belongs to it. -/
theorem match?_one_iff {inClass : Char → Bool} :
    (one inClass).match? p = some q ↔ ∃ c, inClass c = true ∧ Passed [c] p q :=
  Place.skipOne?_eq_some_iff

/-- A given character is matched where it stands. -/
theorem match?_char_iff {mark : Char} : (char mark).match? p = some q ↔ Passed [mark] p q := by
  rw [char, match?_one_iff]
  simp

/-- **A run takes all it can**: characters of its class, up to one that is not. -/
theorem match?_run_iff {inRun : Char → Bool} :
    (run inRun).match? p = some q ↔
      ∃ t, (∀ c ∈ t, inRun c = true) ∧ (∀ c ∈ q.after.head?, inRun c = false) ∧ Passed t p q := by
  constructor
  · intro h
    obtain rfl := Option.some.inj h
    refine ⟨_, fun c hc => List.mem_takeWhile_imp hc, fun c hc => ?_, .skipRun p inRun⟩
    have hstop := List.head?_dropWhile_not inRun p.after
    have hhead : (p.after.dropWhile inRun).head? = some c := hc
    rw [hhead] at hstop
    exact hstop
  · rintro ⟨t, ht, hstop, hpassed⟩
    have hspan := span_of_stop ht hstop
    rw [← hpassed.after] at hspan
    refine congrArg some (Place.Passed.eq ?_ hpassed)
    exact hspan.1 ▸ .skipRun p inRun

end Piece

namespace Pattern

/-- The pieces match one after the other. -/
theorem match?_cons_iff {piece : Piece} {pattern : Pattern} {p q : Place} :
    match? (piece :: pattern) p = some q ↔
      ∃ m, piece.match? p = some m ∧ match? pattern m = some q := Option.bind_eq_some_iff

/-- The empty pattern matches everywhere and takes nothing. -/
theorem match?_nil_iff {p q : Place} : match? [] p = some q ↔ p = q := by
  rw [match?, Option.some.injEq]

end Pattern

/-! ## Names -/

/-- Whether a text is a name that the scan for calls can report. -/
def isCallName : Text → Bool
  | [] => false
  | c :: rest => opensName c && rest.all extendsCallName

/-- A name may go on with whatever it may begin with. -/
theorem extendsCallName_of_opensName {c : Char} (h : opensName c = true) :
    extendsCallName c = true := by
  refine Calls.extendsCallName_of_extendsName ?_
  simp only [opensName, extendsName, Char.isAlphanum, Bool.or_eq_true] at h ⊢
  tauto

/-- No called name has a blank in it; the blanks are few enough to be looked at one by one. -/
theorem extendsCallName_of_isBlank {c : Char} (h : isBlank c = true) :
    extendsCallName c = false := by
  have hcodes : ∀ n ∈ blankCodes, extendsCallName (Char.ofNat n) = false := by decide +kernel
  exact of_isBlank (P := fun c => extendsCallName c = false) hcodes h

/-- The same, told from the character. -/
theorem isBlank_of_extendsCallName {c : Char} (h : extendsCallName c = true) :
    isBlank c = false := by
  by_contra hblank
  rw [extendsCallName_of_isBlank (Bool.of_not_eq_false hblank)] at h
  cases h

/-- A called name has a first character, with which it may begin. -/
theorem exists_cons_of_isCallName {name : Text} (h : isCallName name = true) :
    ∃ c rest, name = c :: rest ∧ opensName c = true := by
  cases name with
  | nil => cases h
  | cons c rest => exact ⟨c, rest, rfl, (Bool.and_eq_true_iff.1 h).1⟩

/-- Every character of a called name is one with which it may go on, the first included. -/
theorem extendsCallName_of_isCallName {name : Text} (h : isCallName name = true) :
    ∀ c ∈ name, extendsCallName c = true := by
  cases name with
  | nil => cases h
  | cons c rest =>
      obtain ⟨hopens, hextends⟩ := Bool.and_eq_true_iff.1 h
      rintro d hd
      rcases List.mem_cons.1 hd with rfl | hd
      · exact extendsCallName_of_opensName hopens
      · exact List.all_eq_true.1 hextends d hd

/-- A name is read where it stands and ends. -/
theorem takeName?_eq_some_iff {p q : Place} {name : Text} :
    takeName? p = some (name, q) ↔
      isCallName name = true ∧ (∀ c ∈ q.after.head?, extendsCallName c = false) ∧
        Passed name p q := by
  constructor
  · intro h
    obtain ⟨hpassed, -⟩ := passed_of_takeName? h
    obtain ⟨before, after⟩ := p
    cases after with
    | nil => cases h
    | cons c rest =>
        rw [takeName?] at h
        dsimp only at h
        split at h
        next hopens =>
          obtain ⟨rfl, hskip⟩ := Prod.mk.inj (Option.some.inj h)
          have hrun : (Piece.run extendsCallName).match? ⟨c :: before, rest⟩ = some q :=
            congrArg some hskip
          obtain ⟨-, -, hstop, -⟩ := Piece.match?_run_iff.1 hrun
          have hall : (rest.takeWhile extendsCallName).all extendsCallName = true :=
            List.all_eq_true.2 fun c hc => List.mem_takeWhile_imp hc
          refine ⟨?_, hstop, hpassed⟩
          rw [isCallName, hopens, hall]
          rfl
        next => cases h
  · rintro ⟨hname, hstop, hpassed⟩
    cases name with
    | nil => cases hname
    | cons c rest =>
        obtain ⟨hopens, hextends⟩ := Bool.and_eq_true_iff.1 hname
        have hspan := span_of_stop (List.all_eq_true.1 hextends) hstop
        have hafter : p.after = c :: (rest ++ q.after) := hpassed.after
        rw [takeName?, hafter]
        dsimp only
        rw [if_pos hopens, Place.skipRun]
        dsimp only
        rw [hspan.1, hspan.2]
        refine congrArg some (Prod.ext rfl ?_)
        exact Place.Passed.eq ⟨hafter, by simp⟩ hpassed

/-! ## Texts split twice -/

/-- Where a part of a text and the text end apart, one reaches beyond the other. -/
theorem cut_or_behind {back rest part tail : Text} (h : back ++ rest = part ++ tail) :
    (∃ c more, part = back ++ c :: more ∧ rest = c :: (more ++ tail)) ∨
      ∃ back', back = part ++ back' ∧ back' ++ rest = tail := by
  rcases List.append_eq_append_iff.1 h with ⟨more, hpart, hrest⟩ | ⟨back', hback, htail⟩
  · cases more with
    | nil => exact .inr ⟨[], by rw [hpart, List.append_nil, List.append_nil], hrest⟩
    | cons c more => exact .inl ⟨c, more, hpart, hrest⟩
  · exact .inr ⟨back', hback, htail.symm⟩

/-- A text that begins with a run of a class splits behind the run in one way. -/
theorem eq_of_runs {inRun : Char → Bool} {t u rest rest' : Text} (ht : ∀ c ∈ t, inRun c = true)
    (hu : ∀ c ∈ u, inRun c = true) (hrest : ∀ c ∈ rest.head?, inRun c = false)
    (hrest' : ∀ c ∈ rest'.head?, inRun c = false) (h : t ++ rest = u ++ rest') :
    t = u ∧ rest = rest' := by
  obtain ⟨htake, hdrop⟩ := span_of_stop ht hrest
  obtain ⟨htake', hdrop'⟩ := span_of_stop hu hrest'
  rw [h] at htake hdrop
  exact ⟨htake.symm.trans htake', hdrop.symm.trans hdrop'⟩

end Scriptwright
