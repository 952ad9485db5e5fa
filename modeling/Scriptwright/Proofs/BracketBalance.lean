import Scriptwright.Script.Delimiters

/-!
# Brackets as a stack

The walk of `Delimiters.check` knows lines and words its problems; whether it has
one at all depends on less.  `unwind` keeps the kinds of the open brackets alone
and gives nothing as soon as a bracket closes what is not open.  It works piece
by piece (`unwind_append`), a text that leaves its own brackets closed does so
inside any others (`unwind_inside`), and only brackets count (`unwind_filter`).

**A code is balanced if and only if it unwinds to nothing open**
(`isBalanced_iff`), and that is so if and only if it is built from characters that
are no brackets and from pairs of brackets around such texts
(`unwind_eq_nil_iff`).
-/

namespace Scriptwright

namespace Delimiters

/-- A bracket of one of the three kinds. -/
def isBracket (c : Char) : Bool := isOpener c || (opener? c).isSome

/-- The brackets that are open after one more character, the innermost first. -/
def turn (stack : List Char) (c : Char) : Option (List Char) :=
  if isOpener c then some (c :: stack)
  else
    match opener? c with
    | none => some stack
    | some expected =>
        match stack with
        | [] => none
        | opener :: outer => if opener = expected then some outer else none

/-- The brackets that are open after a text, given those open before it. -/
def unwind (stack : List Char) (t : Text) : Option (List Char) := t.foldlM turn stack

/-- No text leaves the stack as it is. -/
@[simp] theorem unwind_nil (stack : List Char) : unwind stack [] = some stack := rfl

/-- The first character is taken, and the rest with the stack that it leaves. -/
theorem unwind_cons (stack : List Char) (c : Char) (t : Text) :
    unwind stack (c :: t) = (turn stack c).bind (unwind · t) := rfl

/-- Texts one after the other are taken one after the other. -/
theorem unwind_append (stack : List Char) (t u : Text) :
    unwind stack (t ++ u) = (unwind stack t).bind (unwind · u) := by
  rw [unwind, List.foldlM_append]
  rfl

/-- The same where it is known what the first text leaves. -/
theorem unwind_append_of_eq {stack stack' : List Char} {t : Text}
    (h : unwind stack t = some stack') (u : Text) : unwind stack (t ++ u) = unwind stack' u := by
  rw [unwind_append, h, Option.bind_some]

/-- Other characters are passed over. -/
theorem turn_of_not_isBracket (stack : List Char) {c : Char} (h : isBracket c = false) :
    turn stack c = some stack := by
  simp only [isBracket, Bool.or_eq_false_iff, Option.isSome_eq_false_iff,
    Option.isNone_iff_eq_none] at h
  simp [turn, h.1, h.2]

/-- A text without brackets leaves the stack as it is. -/
theorem unwind_of_no_bracket (stack : List Char) {t : Text} (h : ∀ c ∈ t, isBracket c = false) :
    unwind stack t = some stack := by
  induction t with
  | nil => rfl
  | cons c t ih =>
      rw [unwind_cons, turn_of_not_isBracket stack (h c List.mem_cons_self), Option.bind_some]
      exact ih fun d hd => h d (List.mem_cons_of_mem _ hd)

/-- Only brackets count. -/
theorem unwind_filter (stack : List Char) (t : Text) :
    unwind stack (t.filter isBracket) = unwind stack t := by
  induction t generalizing stack with
  | nil => rfl
  | cons c t ih =>
      by_cases hc : isBracket c = true
      · rw [List.filter_cons_of_pos hc, unwind_cons, unwind_cons]
        cases turn stack c with
        | none => rfl
        | some stack' => exact ih stack'
      · rw [List.filter_cons_of_neg hc, unwind_cons,
          turn_of_not_isBracket stack (by simpa using hc), Option.bind_some]
        exact ih stack

/-- What is open further out does not matter to a bracket that finds its partner. -/
theorem turn_inside {stack stack' : List Char} {c : Char} (h : turn stack c = some stack')
    (outer : List Char) : turn (stack ++ outer) c = some (stack' ++ outer) := by
  rw [turn] at h ⊢
  split at h
  next hopener =>
    obtain rfl := Option.some.inj h
    rw [if_pos hopener, List.cons_append]
  next hopener =>
    rw [if_neg hopener]
    cases hcloser : opener? c with
    | none =>
        rw [hcloser] at h
        obtain rfl := Option.some.inj h
        rfl
    | some expected =>
        rw [hcloser] at h
        cases stack with
        | nil => cases h
        | cons opener rest =>
            dsimp only [List.cons_append] at h ⊢
            split at h
            next hpartner =>
              obtain rfl := Option.some.inj h
              rw [if_pos hpartner]
            next => cases h

/-- Nor does it matter to a text. -/
theorem unwind_inside {stack stack' : List Char} {t : Text} (h : unwind stack t = some stack')
    (outer : List Char) : unwind (stack ++ outer) t = some (stack' ++ outer) := by
  induction t generalizing stack with
  | nil =>
      obtain rfl := Option.some.inj h
      rfl
  | cons c t ih =>
      rw [unwind_cons] at h ⊢
      obtain ⟨between, hturn, hrest⟩ := Option.bind_eq_some_iff.1 h
      rw [turn_inside hturn outer, Option.bind_some]
      exact ih hrest

/-- The walk has nothing to report exactly if nothing is open at the end. -/
theorem walk_eq_none_iff (opened : List (Char × Nat)) (line : Nat) (code : Text) :
    walk opened line code = none ↔ unwind (opened.map (·.1)) code = some [] := by
  induction code generalizing opened line with
  | nil => cases opened <;> simp [walk]
  | cons c rest ih =>
      rw [walk, unwind_cons]
      by_cases hfeed : c = '\n'
      · have hplain : isBracket '\n' = false := by decide
        rw [if_pos hfeed, hfeed, turn_of_not_isBracket _ hplain]
        exact ih opened (line + 1)
      rw [if_neg hfeed, turn]
      by_cases hopener : isOpener c = true
      · rw [if_pos hopener, if_pos hopener]
        exact ih ((c, line) :: opened) line
      rw [if_neg hopener, if_neg hopener]
      cases opener? c with
      | none => exact ih opened line
      | some expected =>
          cases opened with
          | nil => simp
          | cons bracket outer =>
              obtain ⟨opener, openedOn⟩ := bracket
              by_cases hpartner : opener = expected
              · simpa [hpartner] using ih outer line
              · simp [hpartner]

/-- **Balance.** -/
theorem isBalanced_iff (code : Text) : isBalanced code = true ↔ unwind [] code = some [] := by
  rw [isBalanced, Option.isNone_iff_eq_none, problem?, walk_eq_none_iff, List.map_nil]

/-- A text in which every bracket has its partner: characters that are no brackets, and pairs of
brackets with such texts between and behind them. -/
inductive WellNested : Text → Prop where
  | nil : WellNested []
  | other {c : Char} {t : Text} (h : isBracket c = false) (rest : WellNested t) : WellNested (c :: t)
  | pair {opener closer : Char} {inner t : Text} (h : opener? closer = some opener)
      (inside : WellNested inner) (rest : WellNested t) :
      WellNested (opener :: (inner ++ closer :: t))

/-- What is closed by a bracket opens, and the bracket itself does not. -/
theorem isOpener_of_opener? {opener closer : Char} (h : opener? closer = some opener) :
    isOpener opener = true ∧ isOpener closer = false := by
  unfold opener? at h
  split at h
  next hcloser => cases h; subst hcloser; decide
  split at h
  next hcloser => cases h; subst hcloser; decide
  split at h
  next hcloser => cases h; subst hcloser; decide
  next => cases h

/-- **A well-nested text leaves the stack as it is.** -/
theorem WellNested.unwind {t : Text} (h : WellNested t) (stack : List Char) :
    unwind stack t = some stack := by
  induction h generalizing stack with
  | nil => rfl
  | other hc _ ih => rw [unwind_cons, turn_of_not_isBracket stack hc, Option.bind_some, ih]
  | @pair opener closer inner t hpair _ _ ihinner ih =>
      obtain ⟨hopener, hcloser⟩ := isOpener_of_opener? hpair
      have hopen : turn stack opener = some (opener :: stack) := by simp [turn, hopener]
      have hclose : turn (opener :: stack) closer = some stack := by simp [turn, hcloser, hpair]
      rw [unwind_cons, hopen, Option.bind_some, unwind_append_of_eq (ihinner _), unwind_cons, hclose,
        Option.bind_some, ih]

/-- A text that closes open brackets, the innermost first, and is well nested between them. -/
inductive Closes : List Char → Text → Prop where
  | nil {t : Text} (h : WellNested t) : Closes [] t
  | cons {opener closer : Char} {stack : List Char} {t u : Text} (h : opener? closer = some opener)
      (first : WellNested t) (rest : Closes stack u) : Closes (opener :: stack) (t ++ closer :: u)

/-- A character that is no bracket does not matter to what a text closes. -/
theorem Closes.other {stack : List Char} {c : Char} {t : Text} (hc : isBracket c = false)
    (h : Closes stack t) : Closes stack (c :: t) := by
  cases h with
  | nil h => exact .nil (.other hc h)
  | cons hpair first rest => exact .cons hpair (.other hc first) rest

/-- An opening bracket and the bracket that closes it. -/
theorem Closes.pair {opener : Char} {stack : List Char} {t : Text} (h : Closes (opener :: stack) t) :
    Closes stack (opener :: t) := by
  cases h with
  | cons hpair first rest =>
      cases rest with
      | nil rest => exact .nil (.pair hpair first rest)
      | @cons _ closer _ u v hpair' first' rest =>
          have hclosed := Closes.cons hpair' (.pair hpair first first') rest
          simpa using hclosed

/-- What unwinds to nothing open closes the brackets that were open. -/
theorem closes_of_unwind {stack : List Char} {t : Text} (h : unwind stack t = some []) :
    Closes stack t := by
  induction t generalizing stack with
  | nil =>
      obtain rfl := Option.some.inj h
      exact .nil .nil
  | cons c t ih =>
      rw [unwind_cons] at h
      obtain ⟨next, hturn, hrest⟩ := Option.bind_eq_some_iff.1 h
      have hbehind := ih hrest
      rw [turn] at hturn
      split at hturn
      next =>
        obtain rfl := Option.some.inj hturn
        exact hbehind.pair
      next hopener =>
        split at hturn
        next hcloser =>
          obtain rfl := Option.some.inj hturn
          exact hbehind.other (by simp [isBracket, hopener, hcloser])
        next expected hcloser =>
          cases stack with
          | nil => cases hturn
          | cons opener outer =>
              dsimp only at hturn
              split at hturn
              next hpartner =>
                obtain rfl := Option.some.inj hturn
                exact .cons (hpartner ▸ hcloser) .nil hbehind
              next => cases hturn

/-- **Nesting.** -/
theorem unwind_eq_nil_iff (t : Text) : unwind [] t = some [] ↔ WellNested t := by
  refine ⟨fun h => ?_, fun h => h.unwind []⟩
  cases closes_of_unwind h with
  | nil h => exact h

end Delimiters

end Scriptwright
