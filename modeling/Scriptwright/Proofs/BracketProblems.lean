import Mathlib.Data.List.Induction
import Scriptwright.Proofs.BracketBalance

/-!
# Which bracket is to blame

The walk over the brackets of a code keeps a stack, and the stack is told by the part
of the code that was read: each bracket on it opened somewhere, and what was read
between it and the next one, or behind the last one, is well nested (`Leaves`).  So
every step of the walk is a step in how that part is cut up, and back, a part that is
cut up so has been read with that stack (`walk_of_leaves`).

What the check should say is stated without the walk: the brackets come in three pairs
(`Pair`), a word of them is a Dyck word or not (`Dyck`), and a part of a code is *viable*
if some continuation makes its brackets a Dyck word.  The first closing bracket that
ends this is the one to blame, and if there is none, the innermost bracket that was left
open is; `Blames` is the finding for it, with its wording and its line.  **The check
accepts exactly the codes whose brackets are a Dyck word, and otherwise reports what is
to blame** (`check_eq_iff`).
-/

namespace Scriptwright

namespace Delimiters

open Text (lineAfter feeds)

/-- An opening bracket and the one that closes it. -/
inductive Pair : Char → Char → Prop where
  | braces : Pair '{' '}'
  | parentheses : Pair '(' ')'
  | squares : Pair '[' ']'

/-- The brackets of a text, in order. -/
def brackets (t : Text) : Text := t.filter fun c => c ∈ ['{', '}', '(', ')', '[', ']']

/-- A word of brackets in which every bracket has its partner. -/
inductive Dyck : Text → Prop where
  | nil : Dyck []
  | pair {opener closer : Char} {inner rest : Text} (h : Pair opener closer)
      (inside : Dyck inner) (behind : Dyck rest) : Dyck (opener :: (inner ++ closer :: rest))

/-- A text that some continuation makes well nested. -/
def Viable (t : Text) : Prop := ∃ more, Dyck (brackets (t ++ more))

/-- What is to be found in a code whose brackets do not pair up: the first closing bracket behind
which no continuation is well nested, on its line, while another bracket is open (the innermost is
named, with the line it is on) or while none is; or the innermost bracket that is open at the end,
on its line. -/
inductive Blames (code : Text) : Finding → Prop where
  | mismatched {opener partner closer other : Char} {outer inner rest : Text}
      (hcode : code = outer ++ opener :: (inner ++ closer :: rest))
      (hopener : Pair opener partner) (hinner : Dyck (brackets inner))
      (hviable : Viable (outer ++ opener :: inner)) (hcloser : Pair other closer)
      (hstuck : ¬ Viable (outer ++ opener :: inner ++ [closer])) :
      Blames code ⟨.error, .grammar,
        "Mismatched ".toList ++ ['\'', closer, '\''] ++ ": ".toList ++ ['\'', opener, '\''] ++
          " opened on line ".toList ++ Text.ofNat (lineAfter outer) ++ " is still open".toList,
        some (lineAfter (outer ++ opener :: inner))⟩
  | unexpected {closer other : Char} {before rest : Text}
      (hcode : code = before ++ closer :: rest) (hbefore : Dyck (brackets before))
      (hcloser : Pair other closer) (hstuck : ¬ Viable (before ++ [closer])) :
      Blames code ⟨.error, .grammar,
        "Unexpected ".toList ++ ['\'', closer, '\''] ++ " with nothing open".toList,
        some (lineAfter before)⟩
  | unclosed {opener partner : Char} {outer inner : Text}
      (hcode : code = outer ++ opener :: inner)
      (hopener : Pair opener partner) (hinner : Dyck (brackets inner)) (hviable : Viable code) :
      Blames code ⟨.error, .grammar,
        "Unclosed ".toList ++ ['\'', opener, '\''] ++ " opened on line ".toList ++
          Text.ofNat (lineAfter outer),
        some (lineAfter outer)⟩

/-- The brackets that are open behind a text, the innermost first, each with its line. -/
inductive Leaves : List (Char × Nat) → Text → Prop where
  | closed {t : Text} (h : WellNested t) : Leaves [] t
  | opened {stack : List (Char × Nat)} {opener : Char} {outer inner : Text}
      (before : Leaves stack outer) (hopener : isOpener opener = true) (hinner : WellNested inner) :
      Leaves ((opener, lineAfter outer) :: stack) (outer ++ opener :: inner)

/-! ## Words and texts -/

/-- The walk pairs the brackets of the table, and no others. -/
theorem opener?_eq_some_iff {opener closer : Char} :
    opener? closer = some opener ↔ Pair opener closer := by
  constructor
  · intro h
    unfold opener? at h
    split at h
    next hcloser =>
      obtain rfl := Option.some.inj h
      exact hcloser ▸ .braces
    split at h
    next hcloser =>
      obtain rfl := Option.some.inj h
      exact hcloser ▸ .parentheses
    split at h
    next hcloser =>
      obtain rfl := Option.some.inj h
      exact hcloser ▸ .squares
    next => cases h
  · rintro (_ | _ | _)
    · decide
    · decide
    · decide

/-- Every opening bracket has its closing one, and is the only kind that has. -/
theorem isOpener_iff {c : Char} : isOpener c = true ↔ ∃ closer, Pair c closer := by
  constructor
  · intro h
    simp only [isOpener, Bool.or_eq_true, beq_iff_eq] at h
    rcases h with (rfl | rfl) | rfl
    · exact ⟨_, .braces⟩
    · exact ⟨_, .parentheses⟩
    · exact ⟨_, .squares⟩
  · rintro ⟨closer, _ | _ | _⟩
    · decide
    · decide
    · decide

/-- The brackets of a text are the characters that the walk stops at. -/
theorem brackets_eq_filter_isBracket (t : Text) : brackets t = t.filter isBracket := by
  refine List.filter_congr fun c _ => Bool.eq_iff_iff.2 ?_
  unfold isBracket isOpener opener?
  split_ifs <;> simp_all [or_assoc]

/-- What opens is a bracket. -/
theorem isBracket_of_isOpener {c : Char} (h : isOpener c = true) : isBracket c = true := by
  rw [isBracket, h, Bool.true_or]

/-- What closes is one, too. -/
theorem isBracket_of_opener? {c opener : Char} (h : opener? c = some opener) :
    isBracket c = true := by
  rw [isBracket, h, Option.isSome_some, Bool.or_true]

/-- A word of brackets that is balanced is balanced as a text. -/
theorem Dyck.wellNested {t : Text} (h : Dyck t) : WellNested t := by
  induction h with
  | nil => exact .nil
  | pair hpair _ _ hinside hbehind =>
      exact .pair (opener?_eq_some_iff.2 hpair) hinside hbehind

/-- **A text is well nested exactly if its brackets are a Dyck word.** -/
theorem wellNested_iff_dyck (t : Text) : WellNested t ↔ Dyck (brackets t) := by
  rw [brackets_eq_filter_isBracket]
  constructor
  · intro h
    induction h with
    | nil => exact .nil
    | other hc _ ih => rwa [List.filter_cons_of_neg (by simp [hc])]
    | @pair opener closer inner t hpair _ _ hinner ih =>
        have hopener := isBracket_of_isOpener (isOpener_of_opener? hpair).1
        have hcloser := isBracket_of_opener? hpair
        have hword : (opener :: (inner ++ closer :: t)).filter isBracket =
            opener :: (inner.filter isBracket ++ closer :: t.filter isBracket) := by
          simp [hopener, hcloser]
        rw [hword]
        exact .pair (opener?_eq_some_iff.1 hpair) hinner ih
  · intro h
    rw [← unwind_eq_nil_iff, ← unwind_filter]
    exact h.wellNested.unwind []

/-- A word of brackets can be completed by brackets if it can be completed at all. -/
theorem viable_iff {t : Text} : Viable t ↔ ∃ more, WellNested (t ++ more) := by
  simp only [Viable, wellNested_iff_dyck]

/-- Balanced texts may be put together. -/
theorem wellNested_append {t u : Text} (ht : WellNested t) (hu : WellNested u) :
    WellNested (t ++ u) := by
  rw [← unwind_eq_nil_iff, unwind_append_of_eq (ht.unwind [])]
  exact hu.unwind []

/-- A character that is no bracket is balanced by itself. -/
theorem wellNested_singleton {c : Char} (h : isBracket c = false) : WellNested [c] :=
  .other h .nil

/-! ## What is open -/

namespace Leaves

variable {stack : List (Char × Nat)} {t : Text}

/-- A well nested text behind it opens and closes nothing. -/
theorem append (h : Leaves stack t) {u : Text} (hu : WellNested u) : Leaves stack (t ++ u) := by
  cases h with
  | closed h => exact .closed (wellNested_append h hu)
  | opened before hopener hinner =>
      rw [List.append_assoc, List.cons_append]
      exact .opened before hopener (wellNested_append hinner hu)

/-- A bracket opens. -/
theorem opener (h : Leaves stack t) {c : Char} (hc : isOpener c = true) :
    Leaves ((c, lineAfter t) :: stack) (t ++ [c]) :=
  .opened h hc .nil

/-- The innermost bracket closes. -/
theorem closer {opener : Char} {line : Nat} (h : Leaves ((opener, line) :: stack) t) {c : Char}
    (hc : opener? c = some opener) : Leaves stack (t ++ [c]) := by
  cases h with
  | opened before hopener hinner =>
      rw [List.append_assoc, List.cons_append]
      exact before.append (.pair hc hinner .nil)

/-- The stack that the text unwinds to. -/
theorem unwind (h : Leaves stack t) : unwind [] t = some (stack.map (·.1)) := by
  induction h with
  | closed h => exact h.unwind []
  | @opened stack opener outer inner before hopener hinner ih =>
      have hopen : turn (stack.map (·.1)) opener = some (opener :: stack.map (·.1)) := by
        simp [turn, hopener]
      rw [unwind_append_of_eq ih, unwind_cons, hopen, Option.bind_some]
      exact hinner.unwind _

/-- What is open can be closed, the innermost first. -/
theorem viable (h : Leaves stack t) : Viable t := by
  have hclose : ∃ more, Delimiters.unwind (stack.map (·.1)) more = some [] := by
    induction h with
    | closed h => exact ⟨[], rfl⟩
    | @opened stack opener outer inner before hopener hinner ih =>
        obtain ⟨more, hmore⟩ := ih
        obtain ⟨closer, hpair⟩ := isOpener_iff.1 hopener
        have hcloser := opener?_eq_some_iff.2 hpair
        have hclosed : turn (opener :: stack.map (·.1)) closer = some (stack.map (·.1)) := by
          simp [turn, (isOpener_of_opener? hcloser).2, hcloser]
        exact ⟨closer :: more, by rw [List.map_cons, unwind_cons, hclosed, Option.bind_some, hmore]⟩
  obtain ⟨more, hmore⟩ := hclose
  exact viable_iff.2 ⟨more, (unwind_eq_nil_iff _).1 (by rw [unwind_append_of_eq h.unwind, hmore])⟩

end Leaves

/-! ## A step of the walk -/

variable {stack : List (Char × Nat)} {line : Nat} {c : Char} {rest : Text}

/-- The line behind a character is the same, or the next if the character ends it. -/
theorem lineAfter_append_singleton (t : Text) (c : Char) :
    lineAfter (t ++ [c]) = if c = '\n' then lineAfter t + 1 else lineAfter t := by
  by_cases hc : c = '\n'
  · simp [lineAfter, feeds, hc]
  · simp [lineAfter, feeds, hc]

/-- No bracket ends a line. -/
theorem ne_feed_of_isBracket (h : isBracket c = true) : c ≠ '\n' := by
  rintro rfl
  exact absurd h (by decide)

/-- No bracket ends a line. -/
theorem lineAfter_append_bracket (t : Text) (h : isBracket c = true) :
    lineAfter (t ++ [c]) = lineAfter t := by
  rw [lineAfter_append_singleton, if_neg (ne_feed_of_isBracket h)]

/-- The walk passes a character that is no bracket and counts its line. -/
theorem walk_other (h : isBracket c = false) :
    walk stack line (c :: rest) = walk stack (if c = '\n' then line + 1 else line) rest := by
  simp only [isBracket, Bool.or_eq_false_iff, Option.isSome_eq_false_iff,
    Option.isNone_iff_eq_none] at h
  rw [walk]
  split
  · rfl
  · simp [h.1, h.2]

/-- It remembers a bracket that opens, with its line. -/
theorem walk_opener (h : isOpener c = true) :
    walk stack line (c :: rest) = walk ((c, line) :: stack) line rest := by
  rw [walk, if_neg (ne_feed_of_isBracket (isBracket_of_isOpener h)), if_pos h]

/-- A closing bracket goes with the innermost that is open. -/
theorem walk_closer {opener : Char} {openedOn : Nat} (h : opener? c = some opener) :
    walk ((opener, openedOn) :: stack) line (c :: rest) = walk stack line rest := by
  have hfeed : c ≠ '\n' := ne_feed_of_isBracket (isBracket_of_opener? h)
  simp [walk, hfeed, (isOpener_of_opener? h).2, h]

/-- The problem with a closing bracket that does not go with the innermost that is open. -/
def problemAt (stack : List (Char × Nat)) (c : Char) (line : Nat) : Problem :=
  match stack with
  | [] => .unexpected c line
  | (opener, openedOn) :: _ => .mismatched c opener openedOn line

/-- It stops at a bracket that does not close the last one that is open. -/
theorem walk_stuck {expected : Char} (h : opener? c = some expected)
    (hstack : ∀ bracket ∈ stack.head?, bracket.1 ≠ expected) :
    walk stack line (c :: rest) = some (problemAt stack c line) := by
  have hfeed : c ≠ '\n' := ne_feed_of_isBracket (isBracket_of_opener? h)
  cases stack with
  | nil => simp [walk, hfeed, (isOpener_of_opener? h).2, h, problemAt]
  | cons bracket outer =>
      have hne : bracket.1 ≠ expected := hstack bracket (by simp)
      simp [walk, hfeed, (isOpener_of_opener? h).2, h, problemAt, hne]

/-- **One character.**  The walk goes on with the stack that is told by one character more, or no
continuation is well nested any longer and the walk says so. -/
theorem step_cases {t : Text} (h : Leaves stack t) (c : Char) :
    (∃ next, Leaves next (t ++ [c]) ∧
      ∀ rest, walk stack (lineAfter t) (c :: rest) = walk next (lineAfter (t ++ [c])) rest) ∨
    ((opener? c).isSome = true ∧ ¬ Viable (t ++ [c]) ∧
      ∀ rest, walk stack (lineAfter t) (c :: rest) = some (problemAt stack c (lineAfter t))) := by
  by_cases hopener : isOpener c = true
  · refine .inl ⟨_, h.opener hopener, fun rest => ?_⟩
    rw [walk_opener hopener, lineAfter_append_bracket t (isBracket_of_isOpener hopener)]
  cases hcloser : opener? c with
  | none =>
      have hother : isBracket c = false := by simp [isBracket, hopener, hcloser]
      refine .inl ⟨stack, h.append (wellNested_singleton hother), fun rest => ?_⟩
      rw [walk_other hother, lineAfter_append_singleton]
  | some expected =>
      by_cases hstack : ∀ bracket ∈ stack.head?, bracket.1 ≠ expected
      · refine .inr ⟨rfl, fun hviable => ?_, fun rest => walk_stuck hcloser hstack⟩
        have hturn : turn (stack.map (·.1)) c = none := by
          cases stack with
          | nil => simp [turn, hopener, hcloser]
          | cons bracket outer =>
              have hne : bracket.1 ≠ expected := hstack bracket (by simp)
              simp [turn, hopener, hcloser, hne]
        obtain ⟨more, hmore⟩ := viable_iff.1 hviable
        have hunwind := hmore.unwind []
        rw [List.append_assoc, unwind_append_of_eq h.unwind, List.singleton_append, unwind_cons,
          hturn] at hunwind
        cases hunwind
      · cases stack with
        | nil => exact absurd (by simp) hstack
        | cons bracket outer =>
            obtain ⟨opener, openedOn⟩ := bracket
            obtain rfl : opener = expected := by simpa using hstack
            refine .inl ⟨outer, h.closer hcloser, fun rest => ?_⟩
            rw [walk_closer hcloser, lineAfter_append_bracket t (isBracket_of_opener? hcloser)]

/-! ## The whole walk -/

/-- A well nested text is walked over. -/
theorem walk_wellNested {t : Text} (h : WellNested t) (stack : List (Char × Nat))
    (before rest : Text) :
    walk stack (lineAfter before) (t ++ rest) = walk stack (lineAfter (before ++ t)) rest := by
  induction h generalizing stack before rest with
  | nil => rw [List.nil_append, List.append_nil]
  | @other c t hc _ ih =>
      rw [List.cons_append, walk_other hc, ← lineAfter_append_singleton, ih, List.append_assoc,
        List.singleton_append]
  | @pair opener closer inner t hpair _ _ hinner ih =>
      have hopener := (isOpener_of_opener? hpair).1
      have hopened := lineAfter_append_bracket before (isBracket_of_isOpener hopener)
      have hclosed := lineAfter_append_bracket (before ++ [opener] ++ inner)
        (isBracket_of_opener? hpair)
      calc walk stack (lineAfter before) (opener :: (inner ++ closer :: t) ++ rest)
          = walk ((opener, lineAfter before) :: stack) (lineAfter (before ++ [opener]))
              (inner ++ closer :: (t ++ rest)) := by simp [walk_opener hopener, hopened]
        _ = walk stack (lineAfter (before ++ [opener] ++ inner)) (t ++ rest) := by
              rw [hinner, walk_closer hpair]
        _ = walk stack (lineAfter (before ++ [opener] ++ inner ++ [closer] ++ t)) rest := by
              rw [← hclosed, ih]
        _ = walk stack (lineAfter (before ++ opener :: (inner ++ closer :: t))) rest := by simp

/-- **A text is read with the stack that it leaves.** -/
theorem walk_of_leaves {t : Text} (h : Leaves stack t) (rest : Text) :
    walk [] 1 (t ++ rest) = walk stack (lineAfter t) rest := by
  induction h generalizing rest with
  | closed h => exact walk_wellNested h [] [] rest
  | @opened stack opener outer inner before hopener hinner ih =>
      have hopened := lineAfter_append_bracket outer (isBracket_of_isOpener hopener)
      calc walk [] 1 (outer ++ opener :: inner ++ rest)
          = walk ((opener, lineAfter outer) :: stack) (lineAfter (outer ++ [opener]))
              (inner ++ rest) := by
              rw [List.append_assoc, ih, List.cons_append, walk_opener hopener, hopened]
        _ = walk ((opener, lineAfter outer) :: stack) (lineAfter (outer ++ opener :: inner))
              rest := by
              rw [walk_wellNested hinner, List.append_assoc, List.singleton_append]

/-- A viable text leaves some stack. -/
theorem exists_leaves {t : Text} (h : Viable t) : ∃ stack, Leaves stack t := by
  induction t using List.reverseRecOn with
  | nil => exact ⟨[], .closed .nil⟩
  | append_singleton t c ih =>
      obtain ⟨more, hmore⟩ := h
      obtain ⟨stack, hstack⟩ := ih ⟨c :: more, by simpa using hmore⟩
      rcases step_cases hstack c with ⟨next, hnext, -⟩ | ⟨-, hstuck, -⟩
      · exact ⟨next, hnext⟩
      · exact absurd ⟨more, hmore⟩ hstuck

/-- The finding of a problem. -/
def Problem.finding (p : Problem) : Finding := ⟨.error, .grammar, p.message, some p.line⟩

/-- What the walk says of a closing bracket behind which nothing is well nested is to blame. -/
theorem Leaves.blames {t : Text} (h : Leaves stack t) (hcloser : (opener? c).isSome = true)
    (hstuck : ¬ Viable (t ++ [c])) (rest : Text) :
    Blames (t ++ c :: rest) (problemAt stack c (lineAfter t)).finding := by
  have hviable := h.viable
  obtain ⟨other, hother⟩ := Option.isSome_iff_exists.1 hcloser
  have hpair := opener?_eq_some_iff.1 hother
  cases h with
  | closed h => exact .unexpected rfl ((wellNested_iff_dyck _).1 h) hpair hstuck
  | @opened stack opener outer inner before hopener hinner =>
      obtain ⟨partner, hpartner⟩ := isOpener_iff.1 hopener
      exact .mismatched (List.append_assoc outer (opener :: inner) (c :: rest)) hpartner
        ((wellNested_iff_dyck _).1 hinner) hviable hpair hstuck

/-- **What the walk reports is to blame.** -/
theorem blames_of_walk {t : Text} (h : Leaves stack t) {p : Problem}
    (hwalk : walk stack (lineAfter t) rest = some p) : Blames (t ++ rest) p.finding := by
  induction rest generalizing stack t with
  | nil =>
      have hviable := h.viable
      rw [List.append_nil]
      cases h with
      | closed h => cases hwalk
      | opened before hopener hinner =>
          obtain rfl := Option.some.inj hwalk
          obtain ⟨partner, hpartner⟩ := isOpener_iff.1 hopener
          exact .unclosed rfl hpartner ((wellNested_iff_dyck _).1 hinner) hviable
  | cons c rest ih =>
      rcases step_cases h c with ⟨next, hnext, hstep⟩ | ⟨hcloser, hstuck, hstep⟩
      · rw [hstep] at hwalk
        simpa using ih hnext hwalk
      · obtain rfl := Option.some.inj ((hstep rest).symm.trans hwalk)
        exact h.blames hcloser hstuck rest

/-- **What is to blame is reported.** -/
theorem exists_problem_of_blames {code : Text} {finding : Finding} (h : Blames code finding) :
    ∃ p, problem? code = some p ∧ p.finding = finding := by
  have stuck {stack : List (Char × Nat)} {t : Text} {c : Char} (ht : Leaves stack t)
      (hstuck : ¬ Viable (t ++ [c])) (rest : Text) :
      walk [] 1 (t ++ c :: rest) = some (problemAt stack c (lineAfter t)) := by
    rw [walk_of_leaves ht]
    rcases step_cases ht c with ⟨next, hnext, -⟩ | ⟨-, -, hstep⟩
    · exact absurd hnext.viable hstuck
    · exact hstep rest
  have leaves {opener partner : Char} {outer inner : Text} (hopener : Pair opener partner)
      (hinner : Dyck (brackets inner)) (hviable : Viable (outer ++ opener :: inner)) :
      ∃ stack, Leaves ((opener, lineAfter outer) :: stack) (outer ++ opener :: inner) := by
    obtain ⟨more, hmore⟩ := hviable
    have houter : Viable outer := ⟨opener :: inner ++ more, by rwa [List.append_assoc] at hmore⟩
    obtain ⟨stack, hstack⟩ := exists_leaves houter
    exact ⟨stack, .opened hstack (isOpener_iff.2 ⟨partner, hopener⟩)
      ((wellNested_iff_dyck _).2 hinner)⟩
  cases h with
  | @mismatched opener _ closer _ outer inner _ hcode hopener hinner hviable _ hstuck =>
      obtain ⟨stack, hstack⟩ := leaves hopener hinner hviable
      refine ⟨.mismatched closer opener (lineAfter outer) (lineAfter (outer ++ opener :: inner)),
        ?_, rfl⟩
      rw [hcode, problem?, ← List.cons_append, ← List.append_assoc]
      exact stuck hstack hstuck _
  | @unexpected closer _ before _ hcode hbefore _ hstuck =>
      refine ⟨.unexpected closer (lineAfter before), ?_, rfl⟩
      rw [hcode, problem?]
      exact stuck (.closed ((wellNested_iff_dyck _).2 hbefore)) hstuck _
  | unclosed hcode hopener hinner hviable =>
      obtain ⟨stack, hstack⟩ := leaves hopener hinner (hcode ▸ hviable)
      have hwalk := walk_of_leaves hstack []
      rw [List.append_nil, ← hcode] at hwalk
      exact ⟨_, hwalk, rfl⟩

/-- **The check of the brackets.**  Nothing is reported exactly if the brackets of the code are a
Dyck word.  Otherwise the finding is the one of the bracket that is to blame, with its wording and
its line, and there is no other. -/
theorem check_eq_iff (code : Text) :
    (check code = none ↔ Dyck (brackets code)) ∧
      ∀ finding, check code = some finding ↔ Blames code finding := by
  constructor
  · rw [check, Option.map_eq_none_iff, problem?, walk_eq_none_iff, List.map_nil,
      unwind_eq_nil_iff, wellNested_iff_dyck]
  · intro finding
    have hcheck : check code = (problem? code).map Problem.finding := rfl
    rw [hcheck, Option.map_eq_some_iff]
    constructor
    · rintro ⟨p, hp, rfl⟩
      exact blames_of_walk (.closed .nil) hp
    · exact exists_problem_of_blames

example : check "a(\n]".toList = some ⟨.error, .grammar,
    "Mismatched ']': '(' opened on line 1 is still open".toList, some 2⟩ := by
  decide

end Delimiters

end Scriptwright
