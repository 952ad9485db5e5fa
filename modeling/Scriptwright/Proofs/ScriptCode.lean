import Scriptwright.Proofs.FragmentCode

/-!
# The code of a script of data

A script that declares data, over fragments that are harmless, is shown as lines
in a frame (`Layout.shown_assemble`): two for the handle of the application, the
code of each fragment, and an assignment for each declaration.  All of these are
spared (`Layout.sparedLines_innerLines`): whatever the values are, no rule has a
match in them but the one against the debugger.

Neither has it at the frame.  So **the script has no match of any other rule**
(`Layout.find?_framed`), **one of that rule exactly if `debugger` is a part of one
of the names** (`Layout.find?_debugger_framed_iff`), and **calls nothing
undefined** (`Layout.undefined_framed`).
-/

namespace Scriptwright

open Scan (State EndsLine Shown ShownAs)

/-! ## Declarations of data -/

/-- A declaration whose line assigns data. -/
structure Declaration.IsData (d : Declaration) : Prop where
  name : isIdentifier d.name = true
  line : Layout.IsStatementLine d.line
  value : ∃ value, ShownAs (' ' :: d.initializer) value ∧ Rules.IsValueCode value ∧
    Scan.RefusesShorthand value

/-- Behind the blank before an initializer. -/
theorem Scan.ShownAs.behind_blank {t shown : Text} (h : ShownAs t shown) :
    ShownAs (' ' :: t) (' ' :: shown) := by
  have hblank : ShownAs [' '] [' '] := shownAs_plain (by decide)
  exact hblank.append h

/-- A declaration in any mode but the raw one is one of data. -/
theorem Declaration.isData_of_initializer {name : Text} (hname : isIdentifier name = true)
    {mode : BindingMode} (hmode : mode ≠ .raw) {value : Value} {initializer : Text}
    (h : mode.initializer? value = some initializer) : IsData ⟨name, initializer⟩ := by
  obtain ⟨u, hshown, hrefuses⟩ := Scan.refusesShorthand_initializer hmode h
  have hspells : Alphabet.data.Spells (' ' :: u) :=
    hshown.spells.cons (by decide) fun d => by simp [Alphabet.follows_data]
  exact ⟨hname, Layout.isStatementLine_declaration hname
      (BindingMode.no_feed_initializer (fun hraw => absurd hraw hmode) h),
    _, hshown.shownAs.behind_blank, .data hspells, hrefuses⟩

/-- So is the declaration of a regular expression. -/
theorem Declaration.isData_of_regex {name : Text} (hname : isIdentifier name = true)
    {content flags : Text} (hcontent : Literal.Sealed content)
    (hflags : Builder.flagsAllowed flags = true) :
    IsData ⟨name, Builder.regexInitializer content flags⟩ := by
  obtain ⟨behind, hshown⟩ := Scan.shownAsData_regexArguments hcontent hflags
  have hcallee : ShownAs "new RegExp(".toList "new RegExp(".toList := Scan.shownAs_plain (by decide)
  have hrefuted : Rules.shorthand.isRefutedAt ⟨['='], " new RegExp(".toList⟩ = true := by decide
  refine ⟨hname, Layout.isStatementLine_declaration hname
    (Builder.no_feed_regexInitializer hcontent hflags), " new RegExp(".toList ++ '"' :: behind, ?_,
    .call (by simp [Rules.callees]) hshown.spells, Scan.refusesShorthand_of_isRefutedAt hrefuted _⟩
  dsimp only
  rw [Builder.regexInitializer_eq]
  exact (hcallee.append hshown.shownAs).behind_blank

/-! ## The code of the script -/

namespace Layout

open Rules (assignment)

/-- The first line of the frame, for an application whose name takes that much room. -/
def bindingCode (handle : Text) (n : Nat) : Text :=
  assignment "  var ".toList handle (" Application(".toList ++ (Scan.shownString n ++ [')']))

/-- The second line of the frame. -/
def settingCode (handle : Text) : Text :=
  assignment "  ".toList (handle ++ Rules.setting) " true".toList

/-- A line that assigns is shown as one if its value is shown. -/
theorem shownAs_assignment {lead word t value : Text} (hlead : lead ∈ Rules.leads)
    (hword : word.all Scan.isPlain = true) (ht : ShownAs t value) :
    ShownAs (assignment lead word t) (assignment lead word value) := by
  have hplain : ∀ lead ∈ Rules.leads, lead.all Scan.isPlain = true := by decide
  have hequals : ShownAs [' ', '='] [' ', '='] := Scan.shownAs_plain (by decide)
  have hend : ShownAs [';', '\n'] [';', '\n'] := Scan.shownAs_plain (by decide)
  have hside := (Scan.shownAs_plain (hplain lead hlead)).append (Scan.shownAs_plain hword)
  have hsplit (u : Text) : assignment lead word u =
      lead ++ word ++ ([' ', '='] ++ (u ++ [';', '\n'])) := by simp [assignment]
  rw [hsplit, hsplit]
  exact hside.append (hequals.append (ht.append hend))

/-- The line of a declaration, moved in. -/
theorem shownAs_declaration {d : Declaration} (h : isIdentifier d.name = true) {value : Text}
    (hvalue : ShownAs (' ' :: d.initializer) value) :
    ShownAs d.moved (assignment "  var ".toList d.name value) := by
  have hline : d.moved = assignment "  var ".toList d.name (' ' :: d.initializer) := by
    have hvar : "  var ".toList = ' ' :: ' ' :: "var ".toList := by decide
    have hequals : " = ".toList = [' ', '=', ' '] := by decide
    rw [assignment, Declaration.moved, Declaration.line, Declaration.opening, hvar, hequals]
    simp
  rw [hline]
  exact shownAs_assignment (by decide) (Scan.all_isPlain_of_inert (inert_of_isIdentifier h)) hvalue

/-- The frame is shown as two lines: the call that binds the handle, and the setting. -/
theorem shownAs_harness {settings : BuilderSettings} (h : isIdentifier settings.handle = true) :
    ∃ n, ShownAs (harness settings)
      (bindingCode settings.handle n ++ settingCode settings.handle) := by
  obtain ⟨n, hquote⟩ := Scan.shownAs_quote settings.application
  have hname := Scan.all_isPlain_of_inert (inert_of_isIdentifier h)
  have hplain {t : Text} (ht : t.all Scan.isPlain = true) : ShownAs t t := Scan.shownAs_plain ht
  have hmember : (settings.handle ++ Rules.setting).all Scan.isPlain = true := by
    rw [List.all_append, hname]
    decide
  have hcall := (hplain (show " Application(".toList.all Scan.isPlain = true by decide)).append
    (hquote.append (hplain (show [')'].all Scan.isPlain = true by decide)))
  have htrue := hplain (show " true".toList.all Scan.isPlain = true by decide)
  have hsplit : harness settings = assignment "  var ".toList settings.handle
      (" Application(".toList ++ (Literal.quote settings.application ++ [')'])) ++
        assignment "  ".toList (settings.handle ++ Rules.setting) " true".toList := by
    have hequals : " = Application(".toList = ' ' :: '=' :: " Application(".toList := by decide
    have hsetting : ".includeStandardAdditions = true".toList =
        Rules.setting ++ ' ' :: '=' :: " true".toList := by decide
    rw [harness_eq, assignment, assignment, hequals, hsetting]
    simp
  rw [hsplit]
  exact ⟨n, (shownAs_assignment (by decide) hname hcall).append
    (shownAs_assignment (by decide) hmember htrue)⟩

/-- The lines of the frame assign data. -/
theorem isDataLine_bindingCode {handle : Text} (h : isIdentifier handle = true) (n : Nat) :
    Rules.IsDataLine handle (bindingCode handle n) := by
  have hspells : Alphabet.data.Spells (Scan.shownString n ++ [')']) := by
    refine (Scan.spells_shownString n).append (by decide) fun c _ d hd => ?_
    obtain rfl : ')' = d := by simpa using hd
    simp [Alphabet.follows_data]
  have hrefuted : Rules.shorthand.isRefutedAt ⟨['='], " Application(".toList⟩ = true := by decide
  exact Rules.isDataLine_declaration h (.call (by simp [Rules.callees]) hspells)
    (Scan.refusesShorthand_of_isRefutedAt hrefuted _)

/-- The setting of the handle is a line of data. -/
theorem isDataLine_settingCode {handle : Text} (h : isIdentifier handle = true) :
    Rules.IsDataLine handle (settingCode handle) := by
  have htrue : Alphabet.data.Spells "true".toList := by decide
  have hvalue : Rules.IsValueCode " true".toList := .data (by decide)
  exact Rules.isDataLine_assignment h (by decide) (by simp) hvalue
    (Scan.refusesShorthand_of_inert htrue (by decide))

/-- An empty line is spared everything. -/
theorem sparedLines_empty {known : List Text} : Rules.SparedLines [] known [['\n']] := by
  have hrefuted : ∀ pattern ∈ Rules.debuggerPattern :: Rules.patterns, ∀ c ∈ lineStarts,
      pattern.isRefutedAlong [c] ['\n'] ['\n'] = true := by decide +kernel
  have hmisses : ∀ pattern ∈ Rules.debuggerPattern :: Rules.patterns,
      InLine pattern.Misses ['\n'] :=
    fun pattern hpattern => Pattern.inLine_of_isRefutedAlong (hrefuted pattern hpattern)
  have hcall : ∀ c ∈ ['\n'], Calls.callShape.shuns c = true := by decide
  refine ⟨?_, ?_, ?_, ?_, ?_⟩
  · rw [List.forall_mem_singleton]
    exact ⟨⟨'\n', [], rfl, by decide⟩, rfl⟩
  · rw [List.forall_mem_singleton]
    exact fun pattern hpattern => hmisses pattern (List.mem_cons_of_mem _ hpattern)
  · rw [List.forall_mem_singleton]
    exact fun before c rest _ _ => (Pattern.throughout_of_shuns hcall before _).imp
      fun p hp => Calls.knownAt_of_misses hp known
  · intro t ht _ _ _ _ _
    obtain rfl := List.mem_singleton.1 ht
    exact hmisses _ List.mem_cons_self
  · simpa using hmisses _ List.mem_cons_self

/-- **The section of declarations of data** is shown as lines that are spared. -/
theorem shownAs_declarations {ds : List Declaration} (h : ∀ d ∈ ds, d.IsData) :
    ∃ lines, Rules.SparedLines (ds.map (·.name)) Rules.dataCalls lines ∧
      ShownAs (sectionText (Text.join ['\n'] (ds.map (·.line)))) lines.flatten := by
  have hmoved : ∃ lines, Rules.SparedLines (ds.map (·.name)) Rules.dataCalls lines ∧
      ShownAs (ds.flatMap Declaration.moved) lines.flatten := by
    induction ds with
    | nil => exact ⟨[], .nil, Scan.shownAs_plain rfl⟩
    | cons d more ih =>
        have hd := h d List.mem_cons_self
        obtain ⟨lines, hspared, hshown⟩ := ih fun e he => h e (List.mem_cons_of_mem _ he)
        obtain ⟨value, hvalue, hcode, hrefuses⟩ := hd.value
        have hline := Rules.isDataLine_declaration hd.name hcode hrefuses
        refine ⟨assignment "  var ".toList d.name value :: lines,
          hline.sparedLines.append hspared, ?_⟩
        rw [List.flatMap_cons, List.flatten_cons]
        exact (shownAs_declaration hd.name hvalue).append hshown
  obtain ⟨lines, hspared, hshown⟩ := hmoved
  by_cases hne : ds = []
  · subst hne
    exact ⟨[], .nil, Scan.shownAs_plain rfl⟩
  · have hfeed : ShownAs ['\n'] ['\n'] := Scan.shownAs_plain (by decide)
    refine ⟨['\n'] :: lines, sparedLines_empty.append hspared, ?_⟩
    rw [sectionText_declarations (fun d hd => (h d hd).line) hne]
    exact hfeed.append hshown

/-! ## The frame -/

/-- Lines of code in the frame of a script. -/
def framed (lines : List Text) : Text := opening ++ (lines.flatten ++ closing)

/-- What holds in each of the lines holds between the two parts of the frame. -/
theorem throughout_lines {P : Place → Prop} {lines : List Text} (hlines : ∀ t ∈ lines, IsLine t)
    (h : ∀ t ∈ lines, InLine P t) : Throughout P opening.reverse lines.flatten closing :=
  InLine.flatten hlines h opening.reverse '\x7d' ")();\n".toList (by decide) (by decide)

/-- What comes behind the opening of the function begins as a line does. -/
theorem exists_lineStart_closing {lines : List Text} (hlines : ∀ t ∈ lines, IsLine t) :
    ∃ d ∈ lineStarts, ∃ behind, lines.flatten ++ closing = [d] ++ behind := by
  obtain ⟨d, behind, hnext, hd⟩ :=
    exists_lineStart_flatten hlines (c := '\x7d') (by decide) ")();\n".toList
  exact ⟨d, hd, behind, hnext⟩

/-- **A rule has a match in a script** exactly if it has one between the two parts of the frame. -/
theorem find?_framed_iff {alternatives : List Pattern}
    (halternatives : alternatives ⊆ Rules.debuggerPattern :: Rules.patterns) {lines : List Text}
    (hlines : ∀ t ∈ lines, IsLine t) :
    Pattern.find? alternatives (framed lines) = none ↔ ∀ pattern ∈ alternatives,
      Throughout pattern.Misses opening.reverse lines.flatten closing := by
  have hopening : ∀ pattern ∈ Rules.debuggerPattern :: Rules.patterns, ∀ c ∈ lineStarts,
      pattern.isRefutedAlong [c] [] opening = true := by decide +kernel
  -- No rule is content with the marks that the function is closed with.
  let marks : Alphabet := ⟨closing, fun _ _ => true⟩
  have hforeign : ∀ pattern ∈ Rules.debuggerPattern :: Rules.patterns,
      pattern.isForeign marks = true ∧ pattern.body.isForeign marks = true := by decide +kernel
  have hmarks : marks.Spells closing := Alphabet.spells_of_forall fun c hc => ⟨hc, fun _ => rfl⟩
  rw [Pattern.find?_eq_none_iff]
  refine forall₂_congr fun pattern hpattern => ?_
  have hmem := halternatives hpattern
  obtain ⟨hend, hbody⟩ := hforeign pattern hmem
  obtain ⟨d, hd, behind, hnext⟩ := exists_lineStart_closing hlines
  have hfront : Throughout pattern.Misses [] opening (lines.flatten ++ closing) := by
    rw [hnext]
    exact Pattern.throughout_of_isRefutedAlong (hopening pattern hmem d hd) (fun _ => rfl) behind
  have hback (before : Text) : Throughout pattern.Misses before closing [] :=
    Pattern.throughout_of_isForeign hbody hmarks (by simp) before
  have hlast (before : Text) : pattern.Misses ⟨before, []⟩ :=
    Pattern.misses_of_isForeign hend Alphabet.spells_nil (by simp) before
  rw [framed, throughout_append, throughout_append]
  simp only [List.append_nil]
  rw [and_iff_left (hlast _), and_iff_left (hback _), and_iff_right hfront]

/-- **A script of spared lines** has no match of a rule but of the one against the debugger. -/
theorem find?_framed {names known lines : List Text} (h : Rules.SparedLines names known lines)
    {alternatives : List Pattern} (halternatives : alternatives ⊆ Rules.patterns) :
    Pattern.find? alternatives (framed lines) = none := by
  rw [find?_framed_iff (fun p hp => List.mem_cons_of_mem _ (halternatives hp)) h.line]
  exact fun pattern hpattern =>
    throughout_lines h.line fun t ht => h.rules t ht pattern (halternatives hpattern)

/-- And that one has a match exactly if it is a part of one of the names. -/
theorem find?_debugger_framed_iff {names known lines : List Text}
    (h : Rules.SparedLines names known lines) :
    Pattern.find? [Rules.debuggerPattern] (framed lines) = none ↔
      ∀ name ∈ names, "debugger".toList ∉ name.splitOn '$' := by
  rw [find?_framed_iff (by simp) h.line, List.forall_mem_singleton, ← h.debugger]
  constructor
  · exact inLine_of_throughout_flatten h.line h.steady (c := '\x7d') (by decide)
  · exact throughout_lines h.line

/-- The free calls of a script of spared lines are of known names. -/
theorem knownAt_framed {names known lines : List Text}
    (h : Rules.SparedLines names known lines) :
    Throughout (Calls.KnownAt known) [] (framed lines) [] := by
  have hopening : ∀ c ∈ lineStarts, Calls.isSettledAlong [] [c] [] opening = true := by
    decide +kernel
  have hclosing : ∀ c ∈ closing, Calls.callShape.shuns c = true := by decide
  obtain ⟨d, hd, behind, hnext⟩ := exists_lineStart_closing h.line
  have hfront : Throughout (Calls.KnownAt []) [] opening (lines.flatten ++ closing) := by
    rw [hnext]
    exact Calls.throughout_of_isSettledAlong (hopening d hd) (.inr rfl) behind
  have hback (before : Text) : Throughout Calls.callShape.Misses before closing [] :=
    Pattern.throughout_of_shuns hclosing before []
  rw [framed, throughout_append, throughout_append]
  simp only [List.append_nil]
  exact ⟨hfront.imp fun _ hp => hp.mono (List.nil_subset known), throughout_lines h.line h.calls,
    (hback _).imp fun p hp => Calls.knownAt_of_misses hp known⟩

/-- The code of harmless fragments is spared. -/
theorem sparedLines_fragments {fragments : List (Text × Fragment)}
    (h : ∀ entry ∈ fragments,
      HarmlessCode entry.1 entry.2.dependencies (sectionCode entry.2.code)) :
    Rules.SparedLines []
      (fragments.flatMap fun entry =>
        callable entry.1 entry.2.dependencies (sectionCode entry.2.code))
      (fragments.map fun entry => sectionCode entry.2.code) := by
  induction fragments with
  | nil => exact .nil
  | cons entry more ih =>
      have hentry := (h entry List.mem_cons_self).sparedLines
      have hmore := ih fun other hother => h other (List.mem_cons_of_mem _ hother)
      exact (hentry.mono (List.subset_append_left _ _)).append
        (hmore.mono (List.subset_append_right _ _))

/-- Behind the lines of the handle a function can be declared. -/
theorem openForFunction_handle {handle : Text} (h : isIdentifier handle = true) (n : Nat) :
    Calls.OpenForFunction (opening ++ (bindingCode handle n ++ settingCode handle)) where
  statement := by
    refine ⟨opening ++ (bindingCode handle n ++ ("  ".toList ++ (handle ++ Rules.setting) ++
      " = true".toList)), ';', ?_, by simp⟩
    simp [settingCode, assignment]
  parenthesis := by
    refine ⟨opening ++ ("  var ".toList ++ handle ++ " = Application(".toList ++
      Scan.shownString n), [';', '\n'] ++ settingCode handle, ?_, ?_⟩
    · simp [bindingCode, assignment]
    · have hname : '(' ∉ handle := fun hmem => inert_of_isIdentifier h '(' hmem (by decide)
      have hlead : '(' ∉ "  ".toList ∧ '(' ∉ Rules.setting ∧ '(' ∉ " true".toList := by decide
      simp [settingCode, assignment, hname, hlead]

/-- The lines within the frame: those of the handle, the code of each fragment, and more. -/
def innerLines (handle : Text) (n : Nat) (fragments : List (Text × Fragment)) (lines : List Text) :
    List Text :=
  bindingCode handle n :: settingCode handle ::
    (fragments.map (fun entry => sectionCode entry.2.code) ++ lines)

section

variable {handle : Text} {fragments : List (Text × Fragment)} {names lines : List Text}

/-- The lines of a framed script are those of the frame, of the fragments and of the
declarations. -/
theorem framed_innerLines (n : Nat) : framed (innerLines handle n fragments lines) =
    (opening ++ (bindingCode handle n ++ settingCode handle)) ++
      ((fragments.flatMap fun entry => sectionCode entry.2.code) ++
        (lines.flatten ++ closing)) := by
  simp [framed, innerLines, List.flatMap_def]

/-- **What a script of fragments and data is shown as**: in the frame, the lines of the handle, the
code of each fragment and the lines of the declarations. -/
theorem shown_assemble {settings : BuilderSettings} (hhandle : isIdentifier settings.handle = true)
    (hfragments : ∀ entry ∈ fragments, entry.2.IsShown)
    {declarations : Text}
    (hlines : ShownAs (sectionText declarations) lines.flatten) :
    ∃ n, Shown (framed (innerLines settings.handle n fragments lines))
      State.start (scan (assemble settings [Library.code fragments, declarations, []])) := by
  obtain ⟨n, hharness⟩ := shownAs_harness hhandle
  have hbegin := betweenStatements_opening
  have hfirst : Shown opening State.start (State.start.read opening) :=
    Scan.shownAs_plain (by decide) State.start none rfl
  have hsecond := hharness _ none hbegin.region
  have hthird := (betweenStatements_harness hhandle hbegin).shown_fragments hfragments
  have hfourth := hlines _ none hthird.region
  have hfifth : Shown closing _ _ := Scan.shownAs_plain (by decide) _ none hfourth.region
  have hall := (((hfirst.trans hsecond).trans hthird).trans hfourth).trans hfifth
  have hopening : EndsLine opening := .inr ⟨"(function () \x7b".toList, by decide⟩
  have hparts : assemble settings [Library.code fragments, declarations, []] =
      opening ++ (harness settings ++ (sectionText (Library.code fragments) ++
        (sectionText declarations ++ closing))) := by
    simp [assemble, sectionText]
  refine ⟨n, ?_⟩
  rw [scan, hparts, State.read_append _ hopening, State.read_append _ (endsLine_harness settings),
    State.read_append _ (endsLine_sectionText _), State.read_append _ (endsLine_sectionText _)]
  have hcode : framed (innerLines settings.handle n fragments lines) =
      opening ++ (bindingCode settings.handle n ++ settingCode settings.handle) ++
        (fragments.flatMap fun entry => sectionCode entry.2.code) ++ lines.flatten ++ closing := by
    rw [framed_innerLines]
    simp
  rw [hcode]
  exact hall

/-- The names that they call. -/
def innerCalls (fragments : List (Text × Fragment)) : List Text :=
  Rules.dataCalls ++ fragments.flatMap fun entry =>
    callable entry.1 entry.2.dependencies (sectionCode entry.2.code)

/-- **The lines inside the frame are spared** if the code of the fragments is harmless and the other
lines are spared. -/
theorem sparedLines_innerLines (hhandle : isIdentifier handle = true)
    (hfragments : ∀ entry ∈ fragments,
      HarmlessCode entry.1 entry.2.dependencies (sectionCode entry.2.code))
    (hlines : Rules.SparedLines names Rules.dataCalls lines) (n : Nat) :
    Rules.SparedLines (handle :: handle :: names) (innerCalls fragments)
      (innerLines handle n fragments lines) := by
  have hdata : Rules.dataCalls ⊆ innerCalls fragments := List.subset_append_left _ _
  have hbinding := (isDataLine_bindingCode hhandle n).sparedLines.mono hdata
  have hsetting := (isDataLine_settingCode hhandle).sparedLines.mono hdata
  have hcode := (sparedLines_fragments hfragments).mono
    (List.subset_append_right Rules.dataCalls _)
  exact hbinding.append (hsetting.append (hcode.append (hlines.mono hdata)))

/-- **Nothing undefined is called** in such a script, if what the fragments need is among them or
known to the host. -/
theorem undefined_framed (hhandle : isIdentifier handle = true)
    (hfragments : ∀ entry ∈ fragments,
      HarmlessCode entry.1 entry.2.dependencies (sectionCode entry.2.code))
    (hneeds : ∀ entry ∈ fragments, ∀ dep ∈ entry.2.dependencies,
      dep ∈ fragments.map Prod.fst ∨ Symbols.host.contains dep = true)
    (hlines : Rules.SparedLines names Rules.dataCalls lines) (n : Nat) :
    Calls.undefined (framed (innerLines handle n fragments lines)) Symbols.host = [] := by
  have hspared := sparedLines_innerLines hhandle hfragments hlines n
  refine Calls.undefined_eq_nil (knownAt_framed hspared) fun name hname => ?_
  have hdefines {entry : Text × Fragment} (hentry : entry ∈ fragments) {defined : Text}
      (hdefined : defined = entry.1 ∨ defined ∈
        Calls.parameterNames (firstParameters (sectionCode entry.2.code))) :=
    (openForFunction_handle hhandle n).defines_fragments hfragments (lines.flatten ++ closing)
      hentry hdefined
  rw [← framed_innerLines] at hdefines
  have hhost : ∀ name ∈ "String".toList :: Rules.dataCalls, Symbols.host.contains name = true := by
    decide +kernel
  rcases List.mem_append.1 hname with hdata | hname
  · exact .inl (hhost name (List.mem_cons_of_mem _ hdata))
  · obtain ⟨entry, hentry, hcallable⟩ := List.mem_flatMap.1 hname
    simp only [callable, List.mem_append, List.mem_cons] at hcallable
    rcases hcallable with (rfl | rfl | hdep) | hparameter
    · exact .inl (hhost _ List.mem_cons_self)
    · exact .inr (hdefines hentry (.inl rfl))
    · rcases hneeds entry hentry name hdep with hmem | hhosted
      · obtain ⟨other, hother, rfl⟩ := List.mem_map.1 hmem
        exact .inr (hdefines hother (.inl rfl))
      · exact .inl hhosted
    · exact .inr (hdefines hentry (.inr hparameter))

end

end Layout

end Scriptwright
