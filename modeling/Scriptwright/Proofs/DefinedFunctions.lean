import Scriptwright.Proofs.DeclaredFunctions

/-!
# Names that a code defines

A code defines a name if it declares a function of that name, assigns one to it, or has
it as a parameter (`Calls.TakesParameter`).

Unlike a declaration, a list of parameters can be covered by an earlier match.  From the
keyword of a function the search reads on to the first parenthesis and from there to the
next closing one.  `Calls.Reading` says what is being read at a place.  Where a match
begins nothing is being read (`Calls.readingAt_of_mem_occurrences`), and a list is found
unless its keyword stands within another list (`Calls.mem_parameters_of_reading`).

Hence **a name is never reported exactly if it is never called, or known, or defined in
one of these ways** (`Calls.not_reported_iff`).  Two kinds of parameters are reported though
they are listed: those with characters that a called name may have and a parameter may
not, and those of a function within the list of another (`Calls.listed_and_reported`).
-/

namespace Scriptwright

open Place (Passed)

namespace Calls

/-! ## Parameters -/

/-- The keyword of a function as a word of its own. -/
def functionWord : Pattern := [.wordEdge, .word "function", .wordEdge]

/-- Whether that keyword stands at a place. -/
def opensFunction (p : Place) : Bool := (functionWord.match? p).isSome

/-- Behind the keyword of a function, the text of its parameters stands between the first
parenthesis and the next closing one.  The second place is behind that. -/
structure ListsUpTo (parameters : Text) (p q : Place) : Prop where
  opens : opensFunction p = true
  passed : ∃ lead, '(' ∉ lead ∧ ')' ∉ parameters ∧
    Passed (lead ++ '(' :: (parameters ++ [')'])) p q

theorem opensFunction_iff {p : Place} :
    opensFunction p = true ↔
      ∃ m, Passed "function".toList p m ∧ functionWord.match? p = some m := by
  rw [opensFunction, Option.isSome_iff_exists]
  constructor
  · rintro ⟨m, hm⟩
    refine ⟨m, ?_, hm⟩
    simp only [functionWord, Pattern.match?_cons_iff, Piece.match?_wordEdge_iff,
      Pattern.match?_nil_iff] at hm
    obtain ⟨_, ⟨-, rfl⟩, m', hm', _, ⟨-, rfl⟩, rfl⟩ := hm
    exact Piece.match?_exactly_iff.1 hm'
  · rintro ⟨m, -, hm⟩
    exact ⟨m, hm⟩

/-- Between a function's keyword and its parameters is room for what has no parenthesis. -/
theorem exists_lead {p m : Place} (hm : Passed "function".toList p m) {lead rest : Text}
    (hafter : p.after = lead ++ '(' :: rest) : ∃ more, lead = "function".toList ++ more := by
  have hboth : "function".toList ++ m.after = lead ++ '(' :: rest := hm.after.symm.trans hafter
  rcases List.append_eq_append_iff.1 hboth with ⟨more, hlead, -⟩ | ⟨more, hkeyword, hrest⟩
  · exact ⟨more, hlead⟩
  · cases more with
    | nil => exact ⟨[], by rw [hkeyword, List.append_nil, List.append_nil]⟩
    | cons c more =>
        obtain rfl : '(' = c := (List.cons.inj hrest).1
        have hin : '(' ∈ "function".toList := by rw [hkeyword]; simp
        exact absurd hin (by decide)

/-- **Parameters are read** exactly if they stand there. -/
theorem readParameters_eq_some_iff {parameters : Text} {p q : Place} :
    readParameters p = some (parameters, q) ↔ ListsUpTo parameters p q := by
  have hread : readParameters p =
      ((functionWord.match? p).bind (Pattern.match? [.run (· != '('), .char '('])).bind fun p =>
        (Pattern.match? [.run (· != ')'), .char ')'] p).map fun behind =>
          (p.after.takeWhile (· != ')'), behind) := by
    rw [← Pattern.match?_append]
    rfl
  constructor
  · intro h
    obtain ⟨lead, hafter, hlead, hparameters⟩ := split_of_readParameters h
    obtain ⟨between, -, hpassed⟩ := blindReader_readParameters.advances _ _ _ h
    have hbetween : between = lead ++ '(' :: (parameters ++ [')']) := by
      refine List.append_cancel_right (hpassed.after.symm.trans (hafter.trans ?_))
      simp
    refine ⟨?_, lead, hlead, hparameters, hbetween ▸ hpassed⟩
    rw [hread, Option.bind_assoc] at h
    obtain ⟨m, hm, -⟩ := Option.bind_eq_some_iff.1 h
    exact Option.isSome_iff_exists.2 ⟨m, hm⟩
  · rintro ⟨hopens, lead, hlead, hparameters, hpassed⟩
    obtain ⟨m, hm, hmatch⟩ := opensFunction_iff.1 hopens
    have hafter : p.after = lead ++ '(' :: (parameters ++ ')' :: q.after) := by
      simpa using hpassed.after
    obtain ⟨more, rfl⟩ := exists_lead hm hafter
    obtain ⟨before, after⟩ := m
    obtain rfl : after = more ++ '(' :: (parameters ++ ')' :: q.after) := by
      refine List.append_cancel_left (hm.after.symm.trans (hafter.trans ?_))
      rw [List.append_assoc]
    have hmore : '(' ∉ more := fun hin => hlead (List.mem_append_right _ hin)
    rw [hread, hmatch, Option.bind_some, match?_runTo hmore, Option.bind_some,
      match?_runTo hparameters, Option.map_some, (takeWhile_ne_append hparameters _).1]
    refine congrArg some (Prod.ext rfl ?_)
    refine Place.Passed.eq ⟨hpassed.after, ?_⟩ hpassed
    have hbefore := hm.before
    dsimp only at hbefore
    simp [hbefore]

/-! ## What is being read -/

/-- What is being read while lists of parameters are looked for. -/
inductive Reading where
  /-- No function. -/
  | nothing
  /-- A function, up to its parenthesis. -/
  | head
  /-- The list of its parameters. -/
  | list
deriving DecidableEq

namespace Reading

/-- What is being read behind the character that follows a place. -/
def next (r : Reading) (p : Place) : Reading :=
  match r with
  | nothing => if opensFunction p then head else nothing
  | head => if p.after.head? = some '(' then list else head
  | list => if p.after.head? = some ')' then nothing else list

/-- What is being read behind a text, which stands between two others. -/
def through (r : Reading) (before : Text) : Text → Text → Reading
  | [], _ => r
  | c :: t, rest => (r.next ⟨before, c :: (t ++ rest)⟩).through (c :: before) t rest

theorem through_append (r : Reading) (before t u rest : Text) :
    r.through before (t ++ u) rest =
      (r.through before t (u ++ rest)).through (t.reverse ++ before) u rest := by
  induction t generalizing r before with
  | nil => rfl
  | cons c t ih =>
      rw [List.cons_append, through, through, ih, List.append_assoc, List.reverse_cons,
        List.append_assoc]
      rfl

/-- What is being read up to a mark is read on where the mark does not stand. -/
theorem through_until {r : Reading} {mark : Char}
    (hstays : ∀ p : Place, p.after.head? ≠ some mark → r.next p = r) {t : Text} (h : mark ∉ t)
    (before rest : Text) : r.through before t rest = r := by
  induction t generalizing before with
  | nil => rfl
  | cons c t ih =>
      obtain ⟨hc, ht⟩ := not_or.1 (mt List.mem_cons.2 h)
      have hnext : r.next ⟨before, c :: (t ++ rest)⟩ = r :=
        hstays _ fun heq => hc (Option.some.inj heq).symm
      rw [through, hnext, ih ht]

/-- Behind the parenthesis of a function its list is being read. -/
theorem through_lead {before lead inner rest : Text}
    (hopens : opensFunction ⟨before, lead ++ '(' :: (inner ++ rest)⟩ = true) (hlead : '(' ∉ lead)
    (hinner : ')' ∉ inner) : nothing.through before (lead ++ '(' :: inner) rest = list := by
  obtain ⟨m, hm, -⟩ := opensFunction_iff.1 hopens
  obtain ⟨more, rfl⟩ := exists_lead hm rfl
  have hmore : '(' ∉ "unction".toList ++ more := fun hin => hlead (List.mem_cons_of_mem 'f' hin)
  have hlist :
      nothing.through before ("function".toList ++ more ++ ['(']) (inner ++ rest) = list := by
    rw [through_append]
    have hhead : nothing.through before ("function".toList ++ more) (['('] ++ (inner ++ rest)) =
        head := by
      show (nothing.next ⟨before, "function".toList ++ more ++ '(' :: (inner ++ rest)⟩).through
        ('f' :: before) ("unction".toList ++ more) (['('] ++ (inner ++ rest)) = head
      rw [next, if_pos hopens, through_until (r := head) (fun _ hne => if_neg hne) hmore]
    rw [hhead]
    rfl
  rw [← List.singleton_append, ← List.append_assoc, through_append, hlist,
    through_until (r := list) (fun _ hne => if_neg hne) hinner]

/-- Behind a list that was read nothing is being read. -/
theorem through_listed {parameters between : Text} {p q : Place} (h : ListsUpTo parameters p q)
    (hpassed : Passed between p q) : nothing.through p.before between q.after = nothing := by
  obtain ⟨hopens, lead, hlead, hparameters, hlisted⟩ := h
  have hafter : p.after = lead ++ '(' :: (parameters ++ (')' :: q.after)) := by
    simpa using hlisted.after
  have hplace :
      opensFunction ⟨p.before, lead ++ '(' :: (parameters ++ (')' :: q.after))⟩ = true := by
    rw [← hafter]
    exact hopens
  rw [hpassed.text_eq hlisted, ← List.cons_append, ← List.append_assoc, through_append]
  have hlist : nothing.through p.before (lead ++ '(' :: parameters) ([')'] ++ q.after) = list :=
    through_lead hplace hlead hparameters
  rw [hlist]
  rfl

end Reading

/-- What is being read at a place. -/
def readingAt (p : Place) : Reading := Reading.nothing.through [] p.before.reverse p.after

/-- Behind the keyword of a function the parameters are read if there are parentheses at all. -/
theorem exists_listsUpTo {p : Place} (hopens : opensFunction p = true) {t u v : Text}
    (hafter : p.after = t ++ '(' :: (u ++ ')' :: v)) :
    ∃ parameters q, ListsUpTo parameters p q := by
  obtain ⟨lead, content, hfront, hlead⟩ :=
    List.eq_append_cons_of_mem (List.mem_append_right t (List.mem_singleton_self '('))
  obtain ⟨parameters, behind, hcontent, hparameters⟩ :=
    List.eq_append_cons_of_mem (List.mem_append_right (content ++ u) (List.mem_singleton_self ')'))
  refine ⟨parameters, ⟨_, behind ++ v⟩, hopens, lead, hlead, hparameters, ?_, rfl⟩
  calc p.after = t ++ ['('] ++ (u ++ [')'] ++ v) := by rw [hafter]; simp
    _ = lead ++ ['('] ++ (content ++ u ++ [')'] ++ v) := by rw [hfront]; simp
    _ = lead ++ '(' :: (parameters ++ [')']) ++ (behind ++ v) := by rw [hcontent]; simp

/-- **Where a list is found nothing was being read.** -/
theorem Reading.through_of_mem_occurrencesAt {before gap rest parameters : Text}
    (h : (⟨gap.reverse ++ before, rest⟩, parameters) ∈
      occurrencesAt readParameters ⟨before, gap ++ rest⟩) :
    nothing.through before gap rest = nothing := by
  induction hlen : gap.length using Nat.strongRecOn generalizing before gap with
  | ind n ih =>
      cases hread : readParameters ⟨before, gap ++ rest⟩ with
      | none =>
          cases gap with
          | nil => rfl
          | cons c gap =>
              -- The parentheses of the list would be read from any keyword that stands before it.
              have hopens : opensFunction ⟨before, c :: (gap ++ rest)⟩ ≠ true := by
                intro hopens
                obtain ⟨-, q, hfound⟩ := read_of_mem_occurrencesFrom h
                obtain ⟨-, lead, -, -, hpassed⟩ := readParameters_eq_some_iff.1 hfound
                have hafter : rest = lead ++ '(' :: (parameters ++ ')' :: q.after) := by
                  simpa using hpassed.after
                obtain ⟨parameters', q', hlists⟩ := exists_listsUpTo (t := c :: (gap ++ lead))
                  (u := parameters) (v := q.after) hopens (by simp [hafter])
                rw [List.cons_append, readParameters_eq_some_iff.2 hlists] at hread
                cases hread
              rw [List.cons_append] at h hread
              rw [occurrencesAt_none hread, List.reverse_cons, List.append_assoc] at h
              rw [through, next, if_neg hopens]
              exact ih gap.length (by rw [← hlen]; exact Nat.lt_succ_self _) h rfl
      | some first =>
          obtain ⟨found, q⟩ := first
          have hlists := readParameters_eq_some_iff.1 hread
          obtain ⟨between, hne, hpassed⟩ := blindReader_readParameters.advances _ _ _ hread
          rw [occurrencesAt_found hread hne hpassed] at h
          rcases List.mem_cons.1 h with heq | h
          · have hbefore : gap.reverse ++ before = before :=
              congrArg Place.before (Prod.mk.inj heq).1
            obtain rfl : gap = [] := by
              simpa using List.append_left_eq_self.1 hbefore
            rfl
          · obtain ⟨⟨more, v, hsplit, -, hplace⟩, -⟩ := read_of_mem_occurrencesFrom h
            obtain ⟨hbefore, rfl⟩ := Place.mk.inj hplace
            obtain rfl : gap = between ++ more := by
              have hreversed : gap.reverse ++ before = (between ++ more).reverse ++ before := by
                rw [hbefore, hpassed.before, List.reverse_append, List.append_assoc]
              exact List.reverse_injective (List.append_cancel_right hreversed)
            have hbehind : Reading.nothing.through before between (more ++ rest) = .nothing := by
              rw [← hsplit]
              exact through_listed hlists hpassed
            rw [through_append, hbehind]
            refine ih more.length ?_ ?_ rfl
            · have hpositive := List.length_pos_of_ne_nil hne
              rw [← hlen, List.length_append]
              omega
            · rw [← hpassed.before, ← hsplit, ← hbefore]
              exact h

theorem readingAt_of_mem_occurrences {code parameters : Text} {p : Place}
    (h : (p, parameters) ∈ occurrences readParameters code) : readingAt p = .nothing := by
  obtain ⟨rfl, -⟩ := read_of_mem_occurrences h
  have hplace : (⟨p.before.reverse.reverse ++ [], p.after⟩, parameters) ∈
      occurrencesAt readParameters ⟨[], p.before.reverse ++ p.after⟩ := by
    rw [List.reverse_reverse, List.append_nil]
    exact h
  exact Reading.through_of_mem_occurrencesAt hplace

/-- **A list is found unless its keyword stands within a list** that is being read. -/
theorem mem_parameters_of_reading {parameters : Text} {p q : Place}
    (h : ListsUpTo parameters p q) (hreading : readingAt p ≠ .list) :
    parameters ∈ (occurrences readParameters p.whole).map Prod.snd := by
  obtain ⟨front, back, found, q', between, hsplit, hmem, hfound, hpassed, hlt⟩ :=
    exists_occurrence_reaching blindReader_readParameters.advances
      (readParameters_eq_some_iff.2 h)
  obtain ⟨hopens', lead', hlead', hfound', hpassed'⟩ := readParameters_eq_some_iff.1 hfound
  obtain ⟨-, lead, hlead, hparameters, hlisted⟩ := h
  have hstands : back ++ p.after = lead' ++ ('(' :: (found ++ ')' :: q'.after)) := by
    simpa using hpassed'.after
  rw [hpassed.text_eq hpassed'] at hlt
  by_cases hopen : '(' ∈ back
  · -- The earlier match begins where nothing is being read and is reading its list by now.
    exfalso
    obtain ⟨inner, rfl, hinner⟩ : ∃ inner, back = lead' ++ '(' :: inner ∧ ')' ∉ inner := by
      rcases cut_or_behind hstands with ⟨c, more, rfl, -⟩ | ⟨back₁, rfl, h₁⟩
      · exact absurd (List.mem_append_left _ hopen) hlead'
      cases back₁ with
      | nil =>
          rw [List.append_nil] at hopen
          exact absurd hopen hlead'
      | cons c inner =>
          obtain ⟨rfl, h₂⟩ := List.cons.inj h₁
          refine ⟨inner, rfl, ?_⟩
          rcases cut_or_behind h₂ with ⟨c, more, rfl, -⟩ | ⟨inner', rfl, -⟩
          · exact fun hin => hfound' (List.mem_append_left _ hin)
          · obtain rfl : inner' = [] := by
              simp only [List.length_append, List.length_cons, List.length_nil] at hlt
              exact List.eq_nil_of_length_eq_zero (by omega)
            rwa [List.append_nil]
    have hnothing := readingAt_of_mem_occurrences hmem
    rw [readingAt, List.reverse_reverse] at hnothing
    rw [readingAt, hsplit, Reading.through_append, hnothing, List.append_nil] at hreading
    refine hreading (Reading.through_lead ?_ hlead' hinner)
    rw [← List.cons_append, ← List.append_assoc]
    exact hopens'
  · -- The earlier match reads on to the same list.
    have hsame : lead' ++ '(' :: (found ++ ')' :: q'.after) =
        (back ++ lead) ++ '(' :: (parameters ++ ')' :: q.after) := by
      rw [← hstands, hlisted.after]
      simp
    have hnone : '(' ∉ back ++ lead := by
      rw [List.mem_append, not_or]
      exact ⟨hopen, hlead⟩
    obtain ⟨-, hlists⟩ := eq_of_append_cons hlead' hnone hsame
    obtain ⟨rfl, -⟩ := eq_of_append_cons hfound' hparameters hlists
    exact List.mem_map.2 ⟨_, hmem, rfl⟩

/-! ## What is reported -/

/-- The code has a function whose parameters are plain names, and the name is one of them. -/
def ListsParameter (code name : Text) : Prop :=
  ∃ p q parameters, p.whole = code ∧ ListsUpTo parameters p q ∧
    (∀ parameter ∈ (parameters.splitOn ',').map Text.trim, isCallName parameter = true) ∧
      name ∈ (parameters.splitOn ',').map Text.trim

/-- The code has a function with the name among its parameters; the function does not stand within
the list of another, and the name is made of name characters. -/
def TakesParameter (code name : Text) : Prop :=
  ∃ p q parameters, p.whole = code ∧ ListsUpTo parameters p q ∧
    name ∈ (parameters.splitOn ',').map Text.trim ∧ readingAt p ≠ .list ∧
      name ≠ [] ∧ name.all isNameChar = true

/-- **The names that a code defines.** -/
theorem mem_definedNames_iff {code name : Text} :
    name ∈ definedNames code ↔
      Declares code name ∨ Assigns code name ∨ TakesParameter code name := by
  have hparameters : (name ∈ (occurrences readParameters code).flatMap fun found =>
      parameterNames found.2) ↔ TakesParameter code name := by
    simp only [List.mem_flatMap, parameterNames, List.mem_filter, Bool.and_eq_true,
      Bool.not_eq_true', List.isEmpty_eq_false_iff]
    constructor
    · rintro ⟨⟨p, parameters⟩, hmem, hlisted, hne, hall⟩
      obtain ⟨hcode, q, hread⟩ := read_of_mem_occurrences hmem
      refine ⟨p, q, parameters, hcode, readParameters_eq_some_iff.1 hread, hlisted, ?_, hne, hall⟩
      rw [readingAt_of_mem_occurrences hmem]
      decide
    · rintro ⟨p, q, parameters, rfl, hlists, hlisted, hreading, hne, hall⟩
      obtain ⟨found, hfound, rfl⟩ := List.mem_map.1 (mem_parameters_of_reading hlists hreading)
      exact ⟨found, hfound, hlisted, hne, hall⟩
  rw [definedNames, List.mem_append, List.mem_append, mem_declared_iff, mem_assigned_iff,
    hparameters, or_assoc]

/-- **A name is not reported** exactly if it is not called, or known, or defined. -/
theorem not_reported_iff (code name : Text) (known : NameSet) :
    (∀ call ∈ undefined code known, call.name ≠ name) ↔
      (∀ call ∈ free code, call.name ≠ name) ∨ known.contains name = true ∨
        Declares code name ∨ Assigns code name ∨ TakesParameter code name := by
  rw [← mem_definedNames_iff]
  constructor
  · intro h
    by_cases hknown : known.contains name = true
    · exact .inr (.inl hknown)
    by_cases hdefined : name ∈ definedNames code
    · exact .inr (.inr hdefined)
    refine .inl fun call hcall hname => h call ?_ hname
    refine List.mem_filter.2 ⟨hcall, ?_⟩
    rw [hname]
    simp [hknown, hdefined]
  · intro h call hcall hname
    obtain ⟨hfree, hreported⟩ := List.mem_filter.1 hcall
    rw [hname] at hreported
    rcases h with huncalled | hknown | hdefined
    · exact huncalled call hfree hname
    · simp [hknown] at hreported
    · simp [hdefined] at hreported

/-- A parameter with a combining mark is reported, and so is one of a function within the list of
another. -/
theorem listed_and_reported :
    let marked := "function f(a\u0301) \x7b a\u0301(); \x7d".toList
    let within := "function f(g = function (n) \x7b n(); \x7d) \x7b\x7d".toList
    (isCallName "a\u0301".toList = true ∧ ListsParameter marked "a\u0301".toList ∧
      (⟨"a\u0301".toList, 1⟩ : Call) ∈ undefined marked Symbols.host) ∧
    (isCallName ['n'] = true ∧ ListsParameter within ['n'] ∧
      (⟨['n'], 1⟩ : Call) ∈ undefined within Symbols.host) := by
  intro marked within
  have hmarked : ListsUpTo "a\u0301".toList (.start marked)
      ⟨"function f(a\u0301)".toList.reverse, " \x7b a\u0301(); \x7d".toList⟩ :=
    ⟨by decide +kernel, "function f".toList, by decide, by decide, by decide +kernel,
      by decide +kernel⟩
  have hwithin : ListsUpTo ['n'] ⟨"function f(g = ".toList.reverse,
      "function (n) \x7b n(); \x7d) \x7b\x7d".toList⟩
      ⟨"function f(g = function (n)".toList.reverse, " \x7b n(); \x7d) \x7b\x7d".toList⟩ :=
    ⟨by decide +kernel, "function ".toList, by decide, by decide, by decide +kernel,
      by decide +kernel⟩
  exact ⟨⟨by decide +kernel, ⟨_, _, _, by decide +kernel, hmarked, by decide +kernel,
      by decide +kernel⟩, by decide +kernel⟩,
    ⟨by decide +kernel, ⟨_, _, _, by decide +kernel, hwithin, by decide +kernel,
      by decide +kernel⟩, by decide +kernel⟩⟩

end Calls

end Scriptwright
