import Scriptwright.Proofs.PatternMatches

/-!
# Declared and assigned functions

A function is declared by its keyword, a name and a parenthesis (`Calls.Declares`), or
assigned to a name behind the keyword of a variable (`Calls.Assigns`).  In both, a keyword
as a word of its own and a name stand before a mark, with blanks between
(`Calls.NamesUpTo`), and that is how they are read (`Calls.readNamed_eq_some_iff`).

No earlier match covers one of them.  Its keyword begins behind no word character and is
followed by a blank and a name, and no place within another such phrase is like that
(`Calls.NamesUpTo.behind_of_reached`).  Hence **the declared functions are those that are
found** (`Calls.mem_declared_iff`), **and so are the assigned ones**
(`Calls.mem_assigned_iff`).
-/

namespace Scriptwright

open Place (Passed)

namespace Calls

/-! ## A keyword and a name -/

/-- Behind a place stand a keyword as a word of its own, a name and a mark; between them are
blanks.  The second place is behind the mark. -/
structure NamesUpTo (keyword : Text) (mark : Char) (name : Text) (p r : Place) : Prop where
  begins : p.before.head?.any isWord = false
  isName : isCallName name = true
  passed : ∃ gap gap', gap ≠ [] ∧ Text.allBlank gap = true ∧ Text.allBlank gap' = true ∧
    Passed (keyword ++ (gap ++ (name ++ (gap' ++ [mark])))) p r

/-- A character that may follow a name and its blanks, and is neither. -/
structure IsNameEnd (mark : Char) : Prop where
  name : extendsCallName mark = false
  blank : isBlank mark = false

/-- A keyword is spelt with letters. -/
structure IsKeyword (keyword : Text) : Prop where
  ne_nil : keyword ≠ []
  opens : ∀ c ∈ keyword, isWord c = true

/-- In front of a keyword there is a word boundary exactly if no word goes on into it. -/
theorem IsKeyword.isWordEdge {keyword rest : Text} (h : IsKeyword keyword) {p : Place}
    (hafter : p.after = keyword ++ rest) :
    p.isWordEdge = true ↔ p.before.head?.any isWord = false := by
  obtain ⟨c, keyword, rfl⟩ := List.exists_cons_of_ne_nil h.ne_nil
  have hc : isWord c = true := h.opens c List.mem_cons_self
  simp [Place.isWordEdge, hafter, hc]

/-- A keyword could go on as a name, so it ends where a name would. -/
theorem IsKeyword.extends {keyword : Text} (h : IsKeyword keyword) :
    ∀ c ∈ keyword, extendsCallName c = true := by
  intro c hc
  rw [extendsCallName, h.opens c hc]
  rfl

/-- The keyword before a name, with the blanks between them. -/
def keywordThen (keyword : Text) : Pattern :=
  .wordEdge :: .exactly keyword :: Pattern.someBlanks

/-- A keyword with blanks behind it is matched where it stands as a word of its own. -/
theorem match?_keywordThen_iff {keyword : Text} (hkeyword : IsKeyword keyword) {p q : Place} :
    (keywordThen keyword).match? p = some q ↔
      p.before.head?.any isWord = false ∧ ∃ gap, gap ≠ [] ∧ Text.allBlank gap = true ∧
        (∀ c ∈ q.after.head?, isBlank c = false) ∧ Passed (keyword ++ gap) p q := by
  simp only [keywordThen, Pattern.someBlanks, Piece.blanks, Pattern.match?_cons_iff,
    Pattern.match?_nil_iff, Piece.match?_wordEdge_iff, Piece.match?_exactly_iff,
    Piece.match?_one_iff, Piece.match?_run_iff]
  constructor
  · rintro ⟨_, ⟨hedge, rfl⟩, m, hm, m', ⟨c, hc, hm'⟩, _, ⟨t, ht, hstop, hq⟩, rfl⟩
    refine ⟨(hkeyword.isWordEdge hm.after).1 hedge, [c] ++ t, by simp, ?_, hstop,
      hm.trans (hm'.trans hq)⟩
    exact List.all_eq_true.2 fun d hd =>
      (List.mem_cons.1 hd).elim (fun heq => heq ▸ hc) (ht d)
  · rintro ⟨hbegins, gap, hne, hblank, hstop, hpassed⟩
    obtain ⟨c, t, rfl⟩ := List.exists_cons_of_ne_nil hne
    obtain ⟨m, hm, hgap⟩ := Place.Passed.append_iff.1 hpassed
    obtain ⟨m', hm', hq⟩ := Place.Passed.append_iff.1 (List.singleton_append ▸ hgap)
    obtain ⟨hc, ht⟩ := Bool.and_eq_true_iff.1 hblank
    exact ⟨p, ⟨(hkeyword.isWordEdge hm.after).2 hbegins, rfl⟩, m, hm, m', ⟨c, hc, hm'⟩, q,
      ⟨t, List.all_eq_true.1 ht, hstop, hq⟩, rfl⟩

/-- Blanks and a mark are matched where they stand, with the rest of the pattern behind them. -/
theorem match?_blanksThen_iff {mark : Char} (hmark : isBlank mark = false) {more : Pattern}
    {p q : Place} :
    Pattern.match? (.blanks :: .char mark :: more) p = some q ↔
      ∃ gap r, Text.allBlank gap = true ∧ Passed (gap ++ [mark]) p r ∧ more.match? r = some q := by
  simp only [Piece.blanks, Pattern.match?_cons_iff, Piece.match?_char_iff, Piece.match?_run_iff]
  constructor
  · rintro ⟨m, ⟨gap, hgap, -, hm⟩, r, hr, hmore⟩
    exact ⟨gap, r, List.all_eq_true.2 hgap, hm.trans hr, hmore⟩
  · rintro ⟨gap, r, hgap, hpassed, hmore⟩
    obtain ⟨m, hm, hr⟩ := Place.Passed.append_iff.1 hpassed
    refine ⟨m, ⟨gap, List.all_eq_true.1 hgap, fun c hc => ?_, hm⟩, r, hr, hmore⟩
    rw [hr.after] at hc
    obtain rfl : mark = c := Option.some.inj hc
    exact hmark

/-- **A name is read between a keyword and a mark** exactly if it stands there. -/
theorem readNamed_eq_some_iff {keyword : Text} (hkeyword : IsKeyword keyword) {mark : Char}
    (hmark : IsNameEnd mark) {more : Pattern} {name : Text} {p q : Place} :
    readNamed (keywordThen keyword) (.blanks :: .char mark :: more) p = some (name, q) ↔
      ∃ r, NamesUpTo keyword mark name p r ∧ more.match? r = some q := by
  have hread : readNamed (keywordThen keyword) (.blanks :: .char mark :: more) p = some (name, q) ↔
      ∃ m, (keywordThen keyword).match? p = some m ∧ ∃ m', takeName? m = some (name, m') ∧
        Pattern.match? (.blanks :: .char mark :: more) m' = some q := by
    simp [readNamed, Option.bind_eq_some_iff]
  rw [hread]
  constructor
  · rintro ⟨m, hlead, m', hname, htail⟩
    obtain ⟨hbegins, gap, hne, hgap, -, hm⟩ := (match?_keywordThen_iff hkeyword).1 hlead
    obtain ⟨hisName, -, hm'⟩ := takeName?_eq_some_iff.1 hname
    obtain ⟨gap', r, hgap', hr, hmore⟩ := (match?_blanksThen_iff hmark.blank).1 htail
    refine ⟨r, ⟨hbegins, hisName, gap, gap', hne, hgap, hgap', ?_⟩, hmore⟩
    rw [← List.append_assoc]
    exact hm.trans (hm'.trans hr)
  · rintro ⟨r, ⟨hbegins, hisName, gap, gap', hne, hgap, hgap', hpassed⟩, hmore⟩
    rw [← List.append_assoc] at hpassed
    obtain ⟨m, hm, hpassed⟩ := Place.Passed.append_iff.1 hpassed
    obtain ⟨m', hm', hr⟩ := Place.Passed.append_iff.1 hpassed
    refine ⟨m, (match?_keywordThen_iff hkeyword).2 ⟨hbegins, gap, hne, hgap, ?_, hm⟩, m',
      takeName?_eq_some_iff.2 ⟨hisName, ?_, hm'⟩,
      (match?_blanksThen_iff hmark.blank).2 ⟨gap', r, hgap', hr, hmore⟩⟩
    · intro c hc
      obtain ⟨d, rest, rfl, hopens⟩ := exists_cons_of_isCallName hisName
      rw [hm'.after] at hc
      obtain rfl : d = c := Option.some.inj hc
      exact isBlank_of_extendsCallName (extendsCallName_of_opensName hopens)
    · intro c hc
      rw [hr.after] at hc
      cases gap' with
      | nil =>
          obtain rfl : mark = c := Option.some.inj hc
          exact hmark.name
      | cons d gap' =>
          obtain rfl : d = c := Option.some.inj hc
          exact extendsCallName_of_isBlank (Bool.and_eq_true_iff.1 hgap').1

/-! ## No match within another -/

/-- Behind a word character no word begins. -/
theorem any_isWord_reverse {t : Text} (hne : t ≠ []) (h : ∀ c ∈ t, isWord c = true)
    (u before : Text) : ((u ++ t).reverse ++ before).head?.any isWord = true := by
  obtain ⟨t, c, rfl⟩ : ∃ front c, t = front ++ [c] :=
    ⟨_, _, (List.dropLast_append_getLast hne).symm⟩
  simpa using h c (by simp)

/-- A keyword and a name are not the rest of a name, for a name stands where that one ends. -/
theorem NamesUpTo.not_rest_of_name {keyword name rest gap tail : Text} {mark : Char} {p r : Place}
    (hkeyword : IsKeyword keyword) (hmark : IsNameEnd mark) (h : NamesUpTo keyword mark name p r)
    (hrest : ∀ c ∈ rest, extendsCallName c = true) (hgap : Text.allBlank gap = true) :
    p.after ≠ rest ++ (gap ++ mark :: tail) := by
  intro hafter
  obtain ⟨-, hisName, gap', gap₁, hne, hgap', -, hpassed⟩ := h
  obtain ⟨d, gap', rfl⟩ := List.exists_cons_of_ne_nil hne
  obtain ⟨e, name, rfl, hopens⟩ := exists_cons_of_isCallName hisName
  have hsame := hafter.symm.trans hpassed.after
  simp only [List.append_assoc] at hsame
  have hends : ∀ c ∈ (gap ++ mark :: tail).head?, extendsCallName c = false := by
    cases gap with
    | nil => simpa using hmark.name
    | cons f gap => simpa using extendsCallName_of_isBlank (Bool.and_eq_true_iff.1 hgap).1
  have hblank : extendsCallName d = false :=
    extendsCallName_of_isBlank (Bool.and_eq_true_iff.1 hgap').1
  obtain ⟨-, hbehind⟩ := eq_of_runs hrest hkeyword.extends hends (by simpa using hblank) hsame
  have hname := isBlank_of_extendsCallName (extendsCallName_of_opensName hopens)
  obtain ⟨-, hbehind⟩ := eq_of_runs (List.all_eq_true.1 hgap) (List.all_eq_true.1 hgap')
    (by simpa using hmark.blank) (by simpa using hname) hbehind
  have hextends := extendsCallName_of_opensName hopens
  rw [← (List.cons.inj hbehind).1, hmark.name] at hextends
  cases hextends

/-- What stands behind a place begins with the keyword. -/
theorem NamesUpTo.first {keyword name : Text} {mark c : Char} {p r : Place} {rest : Text}
    (hkeyword : IsKeyword keyword) (h : NamesUpTo keyword mark name p r)
    (hafter : p.after = c :: rest) : keyword.head? = some c := by
  obtain ⟨-, -, gap, gap', -, -, -, hpassed⟩ := h
  obtain ⟨d, letters, rfl⟩ := List.exists_cons_of_ne_nil hkeyword.ne_nil
  exact congrArg some (List.cons.inj (hpassed.after.symm.trans hafter)).1

/-- A keyword begins with no blank and with no mark. -/
theorem NamesUpTo.extends_first {keyword name : Text} {mark c : Char} {p r : Place} {rest : Text}
    (hkeyword : IsKeyword keyword) (h : NamesUpTo keyword mark name p r)
    (hafter : p.after = c :: rest) : extendsCallName c = true :=
  hkeyword.extends c (List.mem_of_head? (h.first hkeyword hafter))

/-- **Within a keyword, a name and a mark no other keyword begins**: one that a text reaches
beyond stands behind the mark. -/
theorem NamesUpTo.behind_of_reached {keyword keyword' name name' back before : Text} {mark : Char}
    {p r r' : Place} (hkeyword : IsKeyword keyword) (hkeyword' : IsKeyword keyword')
    (hmark : IsNameEnd mark) (h : NamesUpTo keyword mark name p r)
    (h' : NamesUpTo keyword' mark name' ⟨before, back ++ p.after⟩ r')
    (hbefore : p.before = back.reverse ++ before) (hne : back ≠ []) :
    ∃ between back', Passed between ⟨before, back ++ p.after⟩ r' ∧ back = between ++ back' ∧
      back' ++ p.after = r'.after := by
  obtain ⟨-, hisName', gap, gap', -, hgap, hgap', hpassed⟩ := h'
  have hstands : back ++ p.after =
      keyword' ++ (gap ++ (name' ++ (gap' ++ ([mark] ++ r'.after)))) := by
    simpa using hpassed.after
  have hblank {c : Char} {rest gap : Text} (hrest : p.after = c :: rest)
      (hgap : Text.allBlank gap = true) : c ∉ gap := by
    intro hc
    have hextends := h.extends_first hkeyword hrest
    rw [extendsCallName_of_isBlank (List.all_eq_true.1 hgap c hc)] at hextends
    cases hextends
  -- The parts are passed one by one, as the keyword begins within none of them.
  rcases cut_or_behind hstands with ⟨c, more, rfl, -⟩ | ⟨back₁, rfl, h₁⟩
  · have hword := any_isWord_reverse hne
      (fun d hd => hkeyword'.opens d (List.mem_append_left _ hd)) [] before
    rw [List.nil_append, ← hbefore, h.begins] at hword
    cases hword
  rcases cut_or_behind h₁ with ⟨c, more, rfl, hrest⟩ | ⟨back₂, rfl, h₂⟩
  · exact absurd (by simp) (hblank hrest hgap)
  rcases cut_or_behind h₂ with ⟨c, more, rfl, hrest⟩ | ⟨back₃, rfl, h₃⟩
  · have hextends : ∀ d ∈ c :: more, extendsCallName d = true := fun d hd =>
      extendsCallName_of_isCallName hisName' d (List.mem_append_right _ hd)
    exact absurd hrest (h.not_rest_of_name hkeyword hmark hextends hgap')
  rcases cut_or_behind h₃ with ⟨c, more, rfl, hrest⟩ | ⟨back₄, rfl, h₄⟩
  · exact absurd (by simp) (hblank hrest hgap')
  rcases cut_or_behind h₄ with ⟨c, more, hpart, hrest⟩ | ⟨back₅, rfl, h₅⟩
  · obtain rfl : c = mark := by
      have hc : c ∈ [mark] := hpart ▸ List.mem_append_right _ List.mem_cons_self
      exact List.mem_singleton.1 hc
    have hextends := h.extends_first hkeyword hrest
    rw [hmark.name] at hextends
    cases hextends
  · exact ⟨_, back₅, hpassed, by simp, h₅⟩

/-! ## Declarations and assignments -/

/-- The code declares a function of the name. -/
def Declares (code name : Text) : Prop :=
  ∃ p r, p.whole = code ∧ NamesUpTo "function".toList '(' name p r

/-- Blanks and the keyword of a function follow a place. -/
def FollowedByFunction (r : Place) : Prop :=
  ∃ gap rest, Text.allBlank gap = true ∧ r.after = gap ++ ("function".toList ++ rest) ∧
    rest.head?.any isWord = false

/-- The keywords that declare a variable. -/
def variableKeywords : List String := ["var", "let", "const"]

/-- The code declares a variable of the name and assigns a function to it. -/
def Assigns (code name : Text) : Prop :=
  ∃ keyword ∈ variableKeywords, ∃ p r, p.whole = code ∧
    NamesUpTo keyword.toList '=' name p r ∧ FollowedByFunction r

/-- The keyword of a function is one. -/
theorem isKeyword_function : IsKeyword "function".toList where
  ne_nil := by decide
  opens := by decide

/-- So are those that declare a variable. -/
theorem isKeyword_variable {keyword : String} (h : keyword ∈ variableKeywords) :
    IsKeyword keyword.toList := by
  have hall : ∀ keyword ∈ variableKeywords,
      keyword.toList ≠ [] ∧ ∀ c ∈ keyword.toList, isWord c = true := by decide
  exact ⟨(hall keyword h).1, (hall keyword h).2⟩

/-- A parenthesis ends a name. -/
theorem isNameEnd_parenthesis : IsNameEnd '(' where
  name := by decide
  blank := by decide

/-- An equals sign ends one. -/
theorem isNameEnd_equals : IsNameEnd '=' where
  name := by decide
  blank := by decide

/-- **A declaration of a function is read** exactly where it stands. -/
theorem readDeclared_eq_some_iff {name : Text} {p q : Place} :
    readDeclared p = some (name, q) ↔ NamesUpTo "function".toList '(' name p q := by
  have hread : readDeclared p = some (name, q) ↔
      ∃ r, NamesUpTo "function".toList '(' name p r ∧ Pattern.match? [] r = some q :=
    readNamed_eq_some_iff isKeyword_function isNameEnd_parenthesis
  rw [hread]
  simp [Pattern.match?_nil_iff]

/-- **The declared functions are those that are found.** -/
theorem mem_declared_iff {code name : Text} :
    name ∈ (occurrences readDeclared code).map Prod.snd ↔ Declares code name := by
  constructor
  · intro h
    obtain ⟨⟨p, name⟩, hmem, rfl⟩ := List.mem_map.1 h
    obtain ⟨hcode, q, hread⟩ := read_of_mem_occurrences hmem
    exact ⟨p, q, hcode, readDeclared_eq_some_iff.1 hread⟩
  · rintro ⟨p, r, rfl, hnames⟩
    refine mem_occurrences_of_read blindReader_readDeclared.advances
      (readDeclared_eq_some_iff.2 hnames) fun before back found q between hbefore hfound hpassed
        hne => ?_
    obtain ⟨between', back', hpassed', rfl, -⟩ :=
      hnames.behind_of_reached isKeyword_function isKeyword_function isNameEnd_parenthesis
        (readDeclared_eq_some_iff.1 hfound) hbefore hne
    rw [hpassed.text_eq hpassed', List.length_append]
    exact Nat.le_add_right _ _

/-- Blanks and the keyword of a function. -/
def functionThen : Pattern := [.blanks, .exactly "function".toList, .wordEdge]

/-- Behind a keyword there is a word boundary exactly if no word goes on from it. -/
theorem isWordEdge_behind {keyword : Text} (h : IsKeyword keyword) {p q : Place}
    (hpassed : Passed keyword p q) : q.isWordEdge = true ↔ q.after.head?.any isWord = false := by
  have hbefore : q.before.head?.any isWord = true := by
    rw [hpassed.before, ← List.nil_append keyword]
    exact any_isWord_reverse h.ne_nil h.opens [] p.before
  simp [Place.isWordEdge, hbefore]

/-- The keyword of a function is matched behind blanks where it is a word of its own. -/
theorem match?_functionThen_iff {p q : Place} :
    functionThen.match? p = some q ↔ ∃ gap, Text.allBlank gap = true ∧
      q.after.head?.any isWord = false ∧ Passed (gap ++ "function".toList) p q := by
  simp only [functionThen, Piece.blanks, Pattern.match?_cons_iff, Pattern.match?_nil_iff,
    Piece.match?_wordEdge_iff, Piece.match?_exactly_iff, Piece.match?_run_iff]
  constructor
  · rintro ⟨m, ⟨gap, hgap, -, hm⟩, _, hq, _, ⟨hedge, rfl⟩, rfl⟩
    exact ⟨gap, List.all_eq_true.2 hgap, (isWordEdge_behind isKeyword_function hq).1 hedge,
      hm.trans hq⟩
  · rintro ⟨gap, hgap, hedge, hpassed⟩
    obtain ⟨m, hm, hq⟩ := Place.Passed.append_iff.1 hpassed
    refine ⟨m, ⟨gap, List.all_eq_true.1 hgap, fun c hc => ?_, hm⟩, q, hq, q,
      ⟨(isWordEdge_behind isKeyword_function hq).2 hedge, rfl⟩, rfl⟩
    rw [hq.after] at hc
    obtain rfl : 'f' = c := Option.some.inj hc
    decide

/-- Said by a pattern, a function follows. -/
theorem FollowedByFunction.iff_match? {p : Place} :
    FollowedByFunction p ↔ ∃ q, functionThen.match? p = some q := by
  simp only [match?_functionThen_iff]
  constructor
  · rintro ⟨gap, rest, hgap, hafter, hedge⟩
    rw [← List.append_assoc] at hafter
    exact ⟨⟨_, rest⟩, gap, hgap, hedge, hafter, rfl⟩
  · rintro ⟨q, gap, hgap, hedge, hpassed⟩
    exact ⟨gap, q.after, hgap, by rw [hpassed.after, List.append_assoc], hedge⟩

/-- The assignment of a function behind one of the keywords. -/
def readAssignedBehind (keyword : String) (p : Place) : Option (Text × Place) :=
  readNamed (keywordThen keyword.toList) (.blanks :: .char '=' :: functionThen) p

/-- An assignment behind one keyword is read exactly where it stands. -/
theorem readAssignedBehind_eq_some_iff {keyword : String} (hkeyword : keyword ∈ variableKeywords)
    {name : Text} {p q : Place} :
    readAssignedBehind keyword p = some (name, q) ↔
      ∃ r, NamesUpTo keyword.toList '=' name p r ∧ functionThen.match? r = some q :=
  readNamed_eq_some_iff (isKeyword_variable hkeyword) isNameEnd_equals

/-- At a place stands one keyword. -/
theorem NamesUpTo.keyword_unique {keyword keyword' name name' : Text} {mark mark' : Char}
    {p r r' : Place} (hkeyword : IsKeyword keyword) (hkeyword' : IsKeyword keyword')
    (h : NamesUpTo keyword mark name p r) (h' : NamesUpTo keyword' mark' name' p r') :
    keyword = keyword' := by
  obtain ⟨-, -, gap, gap₁, hne, hgap, -, hpassed⟩ := h
  obtain ⟨-, -, gap', gap₁', hne', hgap', -, hpassed'⟩ := h'
  obtain ⟨c, gap, rfl⟩ := List.exists_cons_of_ne_nil hne
  obtain ⟨c', gap', rfl⟩ := List.exists_cons_of_ne_nil hne'
  have hboth := hpassed.after.symm.trans hpassed'.after
  simp only [List.append_assoc] at hboth
  refine (eq_of_runs hkeyword.extends hkeyword'.extends ?_ ?_ hboth).1
  · simpa using extendsCallName_of_isBlank (Bool.and_eq_true_iff.1 hgap).1
  · simpa using extendsCallName_of_isBlank (Bool.and_eq_true_iff.1 hgap').1

/-- An assignment is read behind one of the keywords: no two of them stand at one place. -/
theorem readAssigned_eq_some_iff {name : Text} {p q : Place} :
    readAssigned p = some (name, q) ↔
      ∃ keyword ∈ variableKeywords, readAssignedBehind keyword p = some (name, q) := by
  have hread : readAssigned p = variableKeywords.findSome? fun keyword =>
      readAssignedBehind keyword p := rfl
  rw [hread]
  constructor
  · exact List.exists_of_findSome?_eq_some
  · rintro ⟨keyword, hmem, hfound⟩
    cases hfirst : variableKeywords.findSome? fun keyword => readAssignedBehind keyword p with
    | none =>
        rw [List.findSome?_eq_none_iff.1 hfirst keyword hmem] at hfound
        cases hfound
    | some other =>
        obtain ⟨name', q'⟩ := other
        obtain ⟨keyword', hmem', hfound'⟩ := List.exists_of_findSome?_eq_some hfirst
        obtain ⟨r, hnames, -⟩ := (readAssignedBehind_eq_some_iff hmem).1 hfound
        obtain ⟨r', hnames', -⟩ := (readAssignedBehind_eq_some_iff hmem').1 hfound'
        have hsame := NamesUpTo.keyword_unique (isKeyword_variable hmem)
          (isKeyword_variable hmem') hnames hnames'
        rw [String.toList_inj.1 hsame] at hfound
        exact hfound'.symm.trans hfound

/-- **The assigned functions are those that are found.** -/
theorem mem_assigned_iff {code name : Text} :
    name ∈ (occurrences readAssigned code).map Prod.snd ↔ Assigns code name := by
  constructor
  · intro h
    obtain ⟨⟨p, name⟩, hmem, rfl⟩ := List.mem_map.1 h
    obtain ⟨hcode, q, hread⟩ := read_of_mem_occurrences hmem
    obtain ⟨keyword, hkeyword, hread⟩ := readAssigned_eq_some_iff.1 hread
    obtain ⟨r, hnames, hfunction⟩ := (readAssignedBehind_eq_some_iff hkeyword).1 hread
    exact ⟨keyword, hkeyword, p, r, hcode, hnames, FollowedByFunction.iff_match?.2 ⟨q, hfunction⟩⟩
  · rintro ⟨keyword, hkeyword, p, r, rfl, hnames, hfollows⟩
    obtain ⟨q, hfunction⟩ := FollowedByFunction.iff_match?.1 hfollows
    have hread := readAssigned_eq_some_iff.2 ⟨keyword, hkeyword,
      (readAssignedBehind_eq_some_iff hkeyword).2 ⟨r, hnames, hfunction⟩⟩
    refine mem_occurrences_of_read blindReader_readAssigned.advances hread
      fun before back found q' between hbefore hfound hpassed hne => ?_
    obtain ⟨keyword', hkeyword', hfound⟩ := readAssigned_eq_some_iff.1 hfound
    obtain ⟨r', hnames', hfunction'⟩ := (readAssignedBehind_eq_some_iff hkeyword').1 hfound
    obtain ⟨between', back', hpassed', rfl, hbehind⟩ :=
      hnames.behind_of_reached (isKeyword_variable hkeyword) (isKeyword_variable hkeyword')
        isNameEnd_equals hnames' hbefore hne
    obtain ⟨gap, hgap, -, hpassed''⟩ := match?_functionThen_iff.1 hfunction'
    have hbetween := hpassed.text_eq (hpassed'.trans hpassed'')
    suffices hle : (gap ++ "function".toList).length ≤ back'.length by
      rw [hbetween]
      simp only [List.length_append] at hle ⊢
      omega
    -- Neither among the blanks nor within the keyword of the function does the other begin.
    have hstands : back' ++ p.after = gap ++ ("function".toList ++ q'.after) := by
      rw [hbehind, hpassed''.after, List.append_assoc]
    rcases cut_or_behind hstands with ⟨c, more, rfl, hrest⟩ | ⟨back₂, rfl, hkeywords⟩
    · have hextends := hnames.extends_first (isKeyword_variable hkeyword) hrest
      rw [extendsCallName_of_isBlank (List.all_eq_true.1 hgap c (by simp))] at hextends
      cases hextends
    rcases cut_or_behind hkeywords with ⟨c, more, hpart, hrest⟩ | ⟨back₃, rfl, -⟩
    · cases back₂ with
      | nil =>
          obtain rfl : 'f' = c := (List.cons.inj hpart).1
          have hfirst := hnames.first (isKeyword_variable hkeyword) hrest
          have hnone : ∀ keyword ∈ variableKeywords, keyword.toList.head? ≠ some 'f' := by decide
          exact absurd hfirst (hnone keyword hkeyword)
      | cons d back₂ =>
          have hword := any_isWord_reverse (List.cons_ne_nil d back₂)
            (fun e he => isKeyword_function.opens e (hpart ▸ List.mem_append_left _ he))
            (between' ++ gap) before
          rw [List.append_assoc, ← hbefore, hnames.begins] at hword
          cases hword
    · simp only [List.length_append]
      omega

end Calls

end Scriptwright
