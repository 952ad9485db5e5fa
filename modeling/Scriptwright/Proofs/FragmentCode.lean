import Scriptwright.Proofs.DataLines
import Scriptwright.Proofs.DeclarationLines
import Scriptwright.Proofs.ScriptStructure

/-!
# The code of the standard fragments

Each fragment makes a section of its own, though all of them are moved in together
(`Layout.sectionText_code`).  Between statements a section leaves the same code
whatever stands before it (`Scan.BetweenStatements.shown_fragments`).

Of the standard fragments that code can be computed (`harmless_standard`): it is
lines of a script in which no rule has a match, it begins with the head of the
function that it is named after, and its free calls are of that function, of its
parameters, of what the fragment needs and of `String`.

A function whose head stands behind the end of a statement defines its name and
its parameters (`Calls.OpenForFunction.defines`).
-/

namespace Scriptwright

/-! ## Heads of functions -/

namespace Calls

/-- The head of a function on a line of its own, moved in. -/
def functionHead (name : Text) : Text := "\n  function ".toList ++ name ++ ['(']

/-- A character of an identifier is one of called names. -/
theorem extendsCallName_of_extendsName {c : Char} (h : extendsName c = true) :
    extendsCallName c = true := by
  rw [extendsCallName, Rules.isWord_of_extendsName h]
  by_cases hc : c = '$' <;> simp [hc]

/-- An identifier before a parenthesis is read as a whole. -/
theorem takeName?_of_isIdentifier {name : Text} (h : isIdentifier name = true)
    (before rest : Text) : takeName? ⟨before, name ++ '(' :: rest⟩ =
      some (name, ⟨name.reverse ++ before, '(' :: rest⟩) := by
  have hextends := Alphabet.extendsName_of_isIdentifier h
  cases name with
  | nil => cases h
  | cons c name =>
      have hopens : opensName c = true := (Bool.and_eq_true_iff.1 h).1
      have hmore : ∀ d ∈ name, extendsCallName d = true := fun d hd =>
        extendsCallName_of_extendsName (hextends d (List.mem_cons_of_mem _ hd))
      have hmark : extendsCallName '(' = false := by decide +kernel
      rw [List.cons_append, takeName?]
      dsimp only
      rw [if_pos hopens, Place.skipRun]
      dsimp only
      rw [List.takeWhile_append_of_pos hmore, List.dropWhile_append_of_pos hmore,
        List.takeWhile_cons_of_neg (by simp [hmark]), List.dropWhile_cons_of_neg (by simp [hmark])]
      simp

/-- The keyword of a function stands at a word boundary behind a blank. -/
theorem match?_keyword (before rest : Text) :
    Pattern.match? [.wordEdge, .word "function"] ⟨' ' :: before, "function ".toList ++ rest⟩ =
      some ⟨"function".toList.reverse ++ ' ' :: before, ' ' :: rest⟩ := by
  have hedge : Place.isWordEdge ⟨' ' :: before, "function ".toList ++ rest⟩ = true := by
    have hletters : (isWord ' ' != isWord 'f') = true := by decide +kernel
    exact hletters
  have hsplit : "function ".toList ++ rest = "function".toList ++ ' ' :: rest := rfl
  rw [Pattern.match?, Piece.match?, if_pos hedge, Option.bind_some, Pattern.match?, Piece.word,
    Piece.match?, Place.skipText?, hsplit, Text.dropFront?_append]
  rfl

/-- The head of a function is read as its declaration. -/
theorem readDeclared_functionHead {name : Text} (h : isIdentifier name = true)
    (before rest : Text) : ∃ q, readDeclared
      ⟨' ' :: before, "function ".toList ++ (name ++ '(' :: rest)⟩ = some (name, q) := by
  have hblank : ∀ c ∈ (name ++ '(' :: rest).head?, isBlank c = false := by
    cases name with
    | nil => cases h
    | cons c name =>
        intro d hd
        obtain rfl := Option.some.inj hd
        exact Rules.isBlank_of_extendsName
          (Alphabet.extendsName_of_isIdentifier h c List.mem_cons_self)
  have hlead : Pattern.match? (.wordEdge :: .word "function" :: Pattern.someBlanks)
      ⟨' ' :: before, "function ".toList ++ (name ++ '(' :: rest)⟩ =
        some ⟨' ' :: ("function".toList.reverse ++ ' ' :: before), name ++ '(' :: rest⟩ := by
    have hsplit : (.wordEdge :: .word "function" :: Pattern.someBlanks : Pattern) =
        [.wordEdge, .word "function"] ++ Pattern.someBlanks := rfl
    rw [hsplit, Pattern.match?_append, match?_keyword, Option.bind_some]
    have hnone : (name ++ '(' :: rest).takeWhile isBlank = [] ∧
        (name ++ '(' :: rest).dropWhile isBlank = name ++ '(' :: rest := by
      cases hname : name ++ '(' :: rest with
      | nil => exact ⟨rfl, rfl⟩
      | cons c t =>
          have hc := hblank c (by rw [hname]; rfl)
          rw [List.takeWhile_cons_of_neg (by simp [hc]), List.dropWhile_cons_of_neg (by simp [hc])]
          exact ⟨rfl, rfl⟩
    have hspace : isBlank ' ' = true := by decide
    simp [Pattern.someBlanks, Pattern.match?, Piece.match?, Piece.blanks, Place.skipOne?,
      Place.skipRun, hspace, hnone]
  rw [readDeclared, readNamed, hlead, Option.bind_some, takeName?_of_isIdentifier h]
  exact ⟨_, rfl⟩

/-- The parameters behind that head are read, up to the parenthesis that closes them. -/
theorem readParameters_functionHead {name : Text} (h : isIdentifier name = true) {parameters : Text}
    (hparameters : ')' ∉ parameters) (before rest : Text) :
    ∃ q, readParameters ⟨' ' :: before, "function ".toList ++
      (name ++ '(' :: (parameters ++ ')' :: rest))⟩ = some (parameters, q) := by
  have hname : '(' ∉ ' ' :: name := by
    have hinert := inert_of_isIdentifier h
    intro hmem
    rcases List.mem_cons.1 hmem with hmem | hmem
    · cases hmem
    · exact hinert '(' hmem (by decide)
  have hedge : Place.isWordEdge ⟨"function".toList.reverse ++ ' ' :: before,
      (' ' :: name) ++ '(' :: (parameters ++ ')' :: rest)⟩ = true := by
    have hletters : (isWord 'n' != isWord ' ') = true := by decide +kernel
    exact hletters
  have hsplit : ([.wordEdge, .word "function", .wordEdge, .run (· != '('), .char '('] : Pattern) =
      [.wordEdge, .word "function"] ++ .wordEdge :: [.run (· != '('), .char '('] := rfl
  rw [readParameters, hsplit, Pattern.match?_append, match?_keyword, Option.bind_some,
    Pattern.match?, Piece.match?, ← List.cons_append, if_pos hedge, Option.bind_some,
    match?_runTo hname, Option.bind_some, match?_runTo hparameters,
    (takeWhile_ne_append hparameters rest).1]
  exact ⟨_, rfl⟩

/-- A code behind which a function can be declared: it ends a statement and its line, and its last
parenthesis is a closing one. -/
structure OpenForFunction (front : Text) : Prop where
  statement : ∃ more mark, front = more ++ [mark, '\n'] ∧ mark ∈ [';', '}']
  parenthesis : ∃ more gap, front = more ++ ')' :: gap ∧ '(' ∉ gap

/-- **A function declared there is defined, and so are its parameters.** -/
theorem OpenForFunction.defines {front : Text} (hfront : OpenForFunction front) {name : Text}
    (hname : isIdentifier name = true) {parameters : Text} (hparameters : ')' ∉ parameters)
    (rest : Text) {defined : Text} (h : defined = name ∨ defined ∈ parameterNames parameters) :
    defined ∈ definedNames (front ++ (functionHead name ++ (parameters ++ ')' :: rest))) := by
  -- The keyword stands behind the line feed and the two blanks of the head.
  obtain ⟨indent, hindent⟩ : ∃ indent : Text, indent = ['\n', ' ', ' '] := ⟨_, rfl⟩
  have hcode : front ++ (functionHead name ++ (parameters ++ ')' :: rest)) = front ++ indent ++
      ("function ".toList ++ (name ++ '(' :: (parameters ++ ')' :: rest))) := by
    have hsplit : "\n  function ".toList = indent ++ "function ".toList := by rw [hindent]; decide
    have hhead : functionHead name = indent ++ ("function ".toList ++ (name ++ ['('])) := by
      unfold functionHead
      rw [hsplit, List.append_assoc, List.append_assoc]
    simp only [hhead, List.append_assoc, List.singleton_append]
  have hbefore : (front ++ indent).reverse = ' ' :: ' ' :: '\n' :: front.reverse := by
    simp [hindent]
  rw [hcode]
  rcases h with rfl | h
  · obtain ⟨more, mark, rfl, hmark⟩ := hfront.statement
    have hmarks : ∀ mark ∈ [';', '}'], declarationShape.admits mark = false := by decide +kernel
    have hgap : ∀ c ∈ '\n' :: indent, declarationShape.shuns c = true := by rw [hindent]; decide
    obtain ⟨q, hread⟩ := readDeclared_functionHead hname
      (' ' :: '\n' :: (more ++ [mark, '\n']).reverse) (parameters ++ ')' :: rest)
    have hsplit : more ++ [mark, '\n'] ++ indent = more ++ mark :: ('\n' :: indent) := by simp
    rw [← hbefore, hsplit] at hread
    rw [hsplit]
    exact mem_definedNames_of_declared (mem_declared (hmarks mark hmark) hgap hread)
  · obtain ⟨more, gap, rfl, hgap⟩ := hfront.parenthesis
    obtain ⟨q, hread⟩ := readParameters_functionHead hname hparameters
      (' ' :: '\n' :: (more ++ ')' :: gap).reverse) rest
    have hsplit : more ++ ')' :: gap ++ indent = more ++ ')' :: (gap ++ indent) := by simp
    have hgap' : '(' ∉ gap ++ indent := by simp [hgap, hindent]
    rw [← hbefore, hsplit] at hread
    rw [hsplit]
    exact mem_definedNames_of_parameter (mem_parameters hgap' hread) h

end Calls

/-! ## Sections of fragments -/

namespace Layout

/-- A text that ends in a brace is moved in by itself, whatever comes below it. -/
theorem indent_append {t rest : Text} (ht : t.getLast? = some '}') (hrest : rest ≠ []) :
    indent (t ++ '\n' :: rest) = indent t ++ '\n' :: indent rest := by
  induction hlen : t.length using Nat.strongRecOn generalizing t with
  | ind n ih =>
      rcases Text.eq_line_or_append t with hline | ⟨line, more, rfl, hline⟩
      · have hdrop : Text.dropReturn t = t := by simp [Text.dropReturn, ht]
        rw [indent_append_feed hline hrest, indent_of_no_feed hline, hdrop]
      · have hne : more ≠ [] := by
          rintro rfl
          rw [List.getLast?_concat] at ht
          cases ht
        have hlast : more.getLast? = some '}' := by
          rw [List.getLast?_append_of_ne_nil _ (List.cons_ne_nil _ _),
            List.getLast?_cons_of_ne_nil hne] at ht
          exact ht
        have hlt : more.length < n := by
          rw [← hlen, List.length_append, List.length_cons]
          omega
        rw [List.append_assoc, List.cons_append, indent_append_feed hline (by simp),
          indent_append_feed hline hne, ih more.length hlt hlast rfl]
        simp

/-- **Fragments make a section each.** -/
theorem sectionText_code {fragments : List (Text × Fragment)}
    (h : ∀ entry ∈ fragments, entry.2.code.getLast? = some '}') :
    sectionText (Library.code fragments) =
      fragments.flatMap fun entry => sectionText entry.2.code := by
  have hsection {t : Text} (ht : t ≠ []) : sectionText t = '\n' :: indent t ++ ['\n'] := by
    rw [sectionText, if_neg (by simpa using ht)]
  have hne {entry : Text × Fragment} (hentry : entry.2.code.getLast? = some '}') :
      entry.2.code ≠ [] := by
    intro hnil
    rw [hnil] at hentry
    cases hentry
  induction fragments with
  | nil => rfl
  | cons entry more ih =>
      have hentry := h entry List.mem_cons_self
      have hmore := ih fun other hother => h other (List.mem_cons_of_mem _ hother)
      cases more with
      | nil => simp [Library.code, Text.join]
      | cons other more =>
          have hother := h other (List.mem_cons_of_mem _ List.mem_cons_self)
          have hbelow : Library.code (other :: more) ≠ [] := Text.join_ne_nil (hne hother)
          have hsplit : Library.code (entry :: other :: more) =
              entry.2.code ++ '\n' :: ('\n' :: Library.code (other :: more)) := by
            simp [Library.code, Text.join]
          have hempty : indent ([] ++ '\n' :: Library.code (other :: more)) =
              '\n' :: indent (Library.code (other :: more)) :=
            indent_append_feed List.not_mem_nil hbelow
          rw [List.nil_append] at hempty
          rw [List.flatMap_cons, ← hmore, hsection (hne hentry), hsection hbelow, hsplit,
            hsection (by simp), indent_append hentry (by simp), hempty]
          simp

end Layout

/-- The code that a section leaves between statements. -/
def sectionCode (text : Text) : Text := codeAfterStatement (Layout.sectionText text)

open Scan in
/-- A section whose literals are strings is shown as its code. -/
theorem Scan.BetweenStatements.shown_section {text : Text} (h : WholeStatements text)
    (hstrings : ∀ l ∈ (scan (";\n".toList ++ Layout.sectionText text)).found, l.kind = .double)
    {stack : List Char} {s : State} (hs : BetweenStatements stack s) :
    Shown (sectionCode text) s (s.read (Layout.sectionText text)) := by
  obtain ⟨hcode, new, hnew, hendings⟩ := hs.emits (Layout.sectionText text)
  refine ⟨(Layout.betweenStatements_sectionText h hs).region, hcode, new, hnew, fun l hl => ?_⟩
  have hmem : ending l ∈ new.map ending := List.mem_map_of_mem hl
  rw [hendings] at hmem
  obtain ⟨l', hl', heq⟩ := List.mem_map.1 hmem
  have hkind : l'.kind = l.kind := congrArg Prod.fst heq
  rw [← hkind, hstrings l' hl']

/-- What is known of a fragment whose section is shown as its code. -/
structure Fragment.IsShown (f : Fragment) : Prop where
  whole : Scan.WholeStatements f.code
  last : f.code.getLast? = some '}'
  strings : ∀ l ∈ (scan (";\n".toList ++ Layout.sectionText f.code)).found, l.kind = .double

open Scan in
/-- **The sections of fragments**, one below the other. -/
theorem Scan.BetweenStatements.shown_fragments {fragments : List (Text × Fragment)}
    (h : ∀ entry ∈ fragments, entry.2.IsShown) {stack : List Char} {s : State}
    (hs : BetweenStatements stack s) :
    Shown (fragments.flatMap fun entry => sectionCode entry.2.code) s
      (s.read (Layout.sectionText (Library.code fragments))) := by
  rw [Layout.sectionText_code fun entry hentry => (h entry hentry).last]
  induction fragments generalizing s with
  | nil => exact ⟨hs.region, rfl, [], rfl, fun _ hl => absurd hl List.not_mem_nil⟩
  | cons entry more ih =>
      have hentry := h entry List.mem_cons_self
      have hfirst := hs.shown_section hentry.whole hentry.strings
      have hbelow := Layout.betweenStatements_sectionText hentry.whole hs
      rw [List.flatMap_cons, List.flatMap_cons, State.read_append s (Layout.endsLine_sectionText _)]
      exact hfirst.trans (ih (fun e he => h e (List.mem_cons_of_mem _ he)) hbelow)

/-! ## The standard fragments -/

/-- A parenthesis. -/
def isParenthesis (c : Char) : Bool := c == '(' || c == ')'

/-- The text between the first parenthesis and the closing one behind it. -/
def firstParameters (t : Text) : Text := (t.dropWhile (· != '(')).tail.takeWhile (· != ')')

/-- What a function may call: itself, what it needs, its parameters, and `String`. -/
def callable (name : Text) (needs : List Text) (t : Text) : List Text :=
  "String".toList :: name :: needs ++ Calls.parameterNames (firstParameters t)

/-- The code of a section that holds a function, which no rule objects to. -/
structure HarmlessCode (name : Text) (needs : List Text) (t : Text) : Prop where
  identifier : isIdentifier name = true
  head : Calls.functionHead name ++ firstParameters t ++ [')'] <+: t
  parenthesis : t.reverse.find? isParenthesis = some ')'
  last : ['}', '\n'] <:+ t
  rules : ∀ pattern ∈ Rules.debuggerPattern :: Rules.patterns,
    pattern.isRefutedAlong ['\n'] ['\n'] t.dropLast = true
  calls : Calls.isSettledAlong (callable name needs t) ['\n'] ['\n'] t.dropLast = true

instance (name : Text) (needs : List Text) (t : Text) : Decidable (HarmlessCode name needs t) :=
  decidable_of_iff
    (isIdentifier name = true ∧ Calls.functionHead name ++ firstParameters t ++ [')'] <+: t ∧
      t.reverse.find? isParenthesis = some ')' ∧ ['}', '\n'] <:+ t ∧
      (∀ pattern ∈ Rules.debuggerPattern :: Rules.patterns,
        pattern.isRefutedAlong ['\n'] ['\n'] t.dropLast = true) ∧
      Calls.isSettledAlong (callable name needs t) ['\n'] ['\n'] t.dropLast = true)
    ⟨fun ⟨h1, h2, h3, h4, h5, h6⟩ => ⟨h1, h2, h3, h4, h5, h6⟩,
      fun ⟨h1, h2, h3, h4, h5, h6⟩ => ⟨h1, h2, h3, h4, h5, h6⟩⟩

namespace HarmlessCode

variable {name t : Text} {needs : List Text}

/-- Harmless code begins with the head of its function and its parameters. -/
theorem split (h : HarmlessCode name needs t) :
    ∃ rest, t = Calls.functionHead name ++ (firstParameters t ++ ')' :: rest) := by
  obtain ⟨rest, hrest⟩ := h.head
  exact ⟨rest, by simpa using hrest.symm⟩

/-- Harmless code is made of whole lines. -/
theorem isLine (h : HarmlessCode name needs t) : IsLine t where
  first := by
    obtain ⟨rest, hrest⟩ := h.split
    have hhead : (Calls.functionHead name).head? = some '\n' := rfl
    obtain ⟨more, hmore⟩ := List.head?_eq_some_iff.1 hhead
    rw [hmore] at hrest
    exact ⟨'\n', _, hrest, by decide⟩
  last := by
    obtain ⟨front, hfront⟩ := h.last
    rw [← hfront, List.getLast?_append_of_ne_nil _ (by simp)]
    rfl

/-- What holds along the code up to its last line feed, and at that, holds in it as lines. -/
theorem inLine (h : HarmlessCode name needs t) {P : Place → Prop}
    (hbody : ∀ before rest, Throughout P ('\n' :: before) t.dropLast ('\n' :: rest))
    (hend : ∀ c ∈ lineStarts, ∀ before rest, P ⟨'}' :: before, '\n' :: c :: rest⟩) :
    InLine P t := by
  obtain ⟨front, rfl⟩ := h.last
  have hsplit : front ++ ['}', '\n'] = (front ++ ['}']) ++ ['\n'] := by simp
  intro before c rest hbefore hc
  obtain ⟨farther, rfl⟩ := List.head?_eq_some_iff.1 hbefore
  rw [hsplit] at hbody ⊢
  rw [List.dropLast_concat] at hbody
  rw [throughout_append, throughout_cons]
  refine ⟨hbody farther (c :: rest), ?_, throughout_nil⟩
  rw [List.reverse_concat]
  exact hend c hc _ rest

/-- No rule has a match. -/
theorem misses (h : HarmlessCode name needs t) :
    ∀ pattern ∈ Rules.debuggerPattern :: Rules.patterns, InLine pattern.Misses t := by
  have hend : ∀ pattern ∈ Rules.debuggerPattern :: Rules.patterns, ∀ c ∈ lineStarts,
      pattern.isRefutedAt ⟨['}'], ['\n', c]⟩ = true := by decide +kernel
  intro pattern hpattern
  refine h.inLine (fun before rest => ?_) fun c hc before rest => ?_
  · exact Pattern.throughout_of_isRefutedAlong (h.rules pattern hpattern) (by simp) rest
  · exact Pattern.misses_of_isRefutedAt (hend pattern hpattern c hc) ⟨rfl, rfl⟩

/-- The free calls are of known names. -/
theorem knownAt (h : HarmlessCode name needs t) :
    InLine (Calls.KnownAt (callable name needs t)) t := by
  have hend : Calls.callShape.shuns '\n' = true := by decide
  refine h.inLine (fun before rest => ?_) fun c hc before rest => ?_
  · exact Calls.throughout_of_isSettledAlong h.calls (.inl (by simp)) rest
  · exact Calls.knownAt_of_misses (Pattern.misses_of_shuns hend _ _) _

/-- As lines of a script it is spared. -/
theorem sparedLines (h : HarmlessCode name needs t) :
    Rules.SparedLines [] (callable name needs t) [t] where
  line := by simpa using h.isLine
  rules := by
    rw [List.forall_mem_singleton]
    exact fun pattern hpattern => h.misses pattern (List.mem_cons_of_mem _ hpattern)
  calls := by simpa using h.knownAt
  steady := by
    intro u hu _ _ _ _ _
    obtain rfl := List.mem_singleton.1 hu
    exact h.misses _ List.mem_cons_self
  debugger := by simpa using h.misses _ List.mem_cons_self

/-- Behind the code another function can be declared. -/
theorem openForFunction (h : HarmlessCode name needs t) (front : Text) :
    Calls.OpenForFunction (front ++ t) where
  statement := by
    obtain ⟨body, rfl⟩ := h.last
    exact ⟨front ++ body, '}', by rw [List.append_assoc], by simp⟩
  parenthesis := by
    obtain ⟨-, gap, body, hreverse, hgap⟩ := List.find?_eq_some_iff_append.1 h.parenthesis
    refine ⟨front ++ body.reverse, gap.reverse, ?_, fun hmem => ?_⟩
    · rw [← List.reverse_reverse t, hreverse]
      simp
    · have hnone := hgap '(' (List.mem_reverse.1 hmem)
      revert hnone
      decide

end HarmlessCode

/-- **Functions one below the other** define their names and parameters. -/
theorem Calls.OpenForFunction.defines_fragments {fragments : List (Text × Fragment)}
    (h : ∀ entry ∈ fragments,
      HarmlessCode entry.1 entry.2.dependencies (sectionCode entry.2.code))
    {front : Text} (hfront : OpenForFunction front) (rest : Text) {entry : Text × Fragment}
    (hentry : entry ∈ fragments) {defined : Text}
    (hdefined : defined = entry.1 ∨
      defined ∈ parameterNames (firstParameters (sectionCode entry.2.code))) :
    defined ∈ definedNames
      (front ++ ((fragments.flatMap fun entry => sectionCode entry.2.code) ++ rest)) := by
  induction fragments generalizing front with
  | nil => cases hentry
  | cons first more ih =>
      have hfirst := h first List.mem_cons_self
      rw [List.flatMap_cons, List.append_assoc]
      rcases List.mem_cons.1 hentry with rfl | hentry
      · obtain ⟨body, hbody⟩ := hfirst.split
        have hcode (more : Text) : sectionCode entry.2.code ++ more = functionHead entry.1 ++
            (firstParameters (sectionCode entry.2.code) ++ ')' :: (body ++ more)) := by
          conv_lhs => rw [hbody]
          simp
        rw [hcode]
        exact hfront.defines hfirst.identifier not_mem_takeWhile_ne _ hdefined
      · rw [← List.append_assoc]
        exact ih (fun e he => h e (List.mem_cons_of_mem _ he)) (hfirst.openForFunction front) hentry

/-- A fragment under its name in the library. -/
def StandardFragments.named (entry : String × Text × List String) : Text × Fragment :=
  (entry.1.toList, (Fragment.ofCode entry.2.1).dependsOn (entry.2.2.map String.toList))

open StandardFragments in
/-- **The standard fragments are harmless**, and their literals are strings. -/
theorem harmless_standard : ∀ entry ∈ entries.map named,
    HarmlessCode entry.1 entry.2.dependencies (sectionCode entry.2.code) ∧
      entry.2.code.getLast? = some '}' ∧
        ∀ l ∈ (scan (";\n".toList ++ Layout.sectionText entry.2.code)).found, l.kind = .double := by
  unfold entries safeGet findDatabase getRecord isGroup recordSummary collectChildren
    successResult errorResult runAiRequest parseAiResponse block
  simp only [List.map_cons, List.map_nil, String.toList_append]
  -- The kernel would decode the strings anew in every scan.
  repeat rw [String.toList_ofList]
  decide +kernel

open StandardFragments in
/-- The code of every standard fragment is shown as it is. -/
theorem isShown_standard {entry : Text × Fragment} (h : entry ∈ entries.map named) :
    entry.2.IsShown := by
  obtain ⟨-, hlast, hstrings⟩ := harmless_standard entry h
  obtain ⟨source, hsource, rfl⟩ := List.mem_map.1 h
  exact ⟨(Builder.selfContained_standard source hsource).wholeStatements, hlast, hstrings⟩

open StandardFragments in
/-- What the standard fragments need is one of them or known to the host. -/
theorem needs_standard : ∀ entry ∈ entries.map named, ∀ dep ∈ entry.2.dependencies,
    Library.standard.contains dep = true ∨ Symbols.host.contains dep = true := by
  decide +kernel

open StandardFragments in
/-- What the standard library gives for a name is one of the listed fragments. -/
theorem mem_standard {name : Text} {f : Fragment} (h : Library.standard.find? name = some f) :
    (name, f) ∈ entries.map named := by
  have hlibrary : Library.standard = NameMap.insertMany .empty (entries.map named) := rfl
  rw [hlibrary] at h
  rcases NameMap.mem_insertMany (NameMap.mem_of_find? h) with hmem | hmem
  · cases hmem
  · exact hmem

end Scriptwright
