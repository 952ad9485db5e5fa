import Scriptwright.Proofs.DeclarationLines
import Scriptwright.Proofs.ScriptStructure
import Scriptwright.Proofs.TwinScans

/-!
# Injected values do not change how a script is judged

A builder is run twice.  The second time every text that was bound as a text,
every pattern of a regular expression and the name of the application are others
(`Value.Alike`, `Step.Alike`).  The entries of a map keep their order, whatever
their keys say.  Then the same steps are accepted and the same
builds (`Builder.Alike.build`), and the sections of the two scripts lead twin
scans to twin scans (`Layout.twin_assemble`).

The fragments are put in as they stand, before the bindings.  If they left a
literal or a comment open, it would end inside a bound text and what that text
says would decide where; hence the one condition, that the code of the emitted
fragments is closed (`LexicallyClosed`).  Any selection from a library of
self-contained fragments meets it (`Builder.lexicallyClosed_orderedFragments`);
fragments that are closed one by one need not.  Under it **the two scripts are
judged alike**, but for warnings about the escaping
(`Builder.sameJudgement_build`).
-/

namespace Scriptwright

/-! ## Values that say something else -/

mutual

/-- Values that are the same but for what their texts say. -/
inductive Value.Alike : Value → Value → Prop where
  | null : Alike .null .null
  | bool (b : Bool) : Alike (.bool b) (.bool b)
  | number (n : Binary64) : Alike (.number n) (.number n)
  | text (t u : Text) : Alike (.text t) (.text u)
  | list {items items' : List Value} (h : ItemsAlike items items') :
      Alike (.list items) (.list items')
  | map {entries entries' : List (Text × Value)} (h : EntriesAlike entries entries') :
      Alike (.map entries) (.map entries')

/-- Lists of such values. -/
inductive Value.ItemsAlike : List Value → List Value → Prop where
  | nil : ItemsAlike [] []
  | cons {v w : Value} {vs ws : List Value} (first : Alike v w) (rest : ItemsAlike vs ws) :
      ItemsAlike (v :: vs) (w :: ws)

/-- Entries with such values, one for one and in the same order; a key may say something else too,
as long as its entry stays in its place. -/
inductive Value.EntriesAlike : List (Text × Value) → List (Text × Value) → Prop where
  | nil : EntriesAlike [] []
  | cons (key key' : Text) {v w : Value} {vs ws : List (Text × Value)} (first : Alike v w)
      (rest : EntriesAlike vs ws) : EntriesAlike ((key, v) :: vs) ((key', w) :: ws)

end

namespace Scan

/-- The literals of any two texts lead twins to twins: each is one string. -/
theorem matched_quote (t u : Text) : Matched (Literal.quote t) (Literal.quote u) :=
  .quoted (Literal.sealed_escape t) (Literal.sealed_escape u)

/-- A text that the scanner does not notice leads twins to twins. -/
theorem matched_inert {t : Text} (h : Inert t) : Matched t t := .plain (all_isPlain_of_inert h)

/-- Lists lead twins to twins if their items do, one for one. -/
theorem matched_brackets {ts us : List Text} (h : List.Forall₂ Matched ts us) :
    Matched (Literal.brackets ts) (Literal.brackets us) := by
  have hopen : Matched ['['] ['['] := .plain (by decide)
  have hclose : Matched [']'] [']'] := .plain (by decide)
  exact (hopen.append (.join (by decide) h)).append hclose

/-- Maps lead twins to twins if their entries do, one for one. -/
theorem matched_braces {ts us : List Text} (h : List.Forall₂ Matched ts us) :
    Matched (Literal.braces ts) (Literal.braces us) := by
  have hopen : Matched ['{', ' '] ['{', ' '] := .plain (by decide)
  have hclose : Matched [' ', '}'] [' ', '}'] := .plain (by decide)
  cases h with
  | nil => exact .plain (by decide)
  | cons hfirst hrest =>
      exact (hopen.append (.join (by decide) (.cons hfirst hrest))).append hclose

/-- The initializers of two regular expressions with the same flags. -/
theorem matched_regexInitializer {content content' flags : Text} (h : Literal.Sealed content)
    (h' : Literal.Sealed content') (hflags : Builder.flagsAllowed flags = true) :
    Matched (Builder.regexInitializer content flags) (Builder.regexInitializer content' flags) := by
  have hopen : Matched "new RegExp(".toList "new RegExp(".toList := .plain (by decide)
  have hseparator : Matched [',', ' '] [',', ' '] := .plain (by decide)
  have hclose : Matched [')'] [')'] := .plain (by decide)
  have hmore : Matched (if flags.isEmpty then [] else [',', ' '] ++ ('"' :: flags ++ ['"']))
      (if flags.isEmpty then [] else [',', ' '] ++ ('"' :: flags ++ ['"'])) := by
    split
    · exact .nil
    · exact hseparator.append (.quoted (sealed_flags hflags) (sealed_flags hflags))
  rw [Builder.regexInitializer_eq, Builder.regexInitializer_eq]
  exact hopen.append ((Matched.quoted h h').append (hmore.append hclose))

mutual

/-- **The literals of such values** lead twins to twins. -/
theorem matched_render : ∀ {v w : Value}, v.Alike w → Matched (Literal.render v) (Literal.render w)
  | _, _, .null => .plain (by decide)
  | _, _, .bool b => matched_inert (inert_renderBool b)
  | _, _, .number n => matched_inert (inert_format n)
  | _, _, .text t u => matched_quote t u
  | _, _, .list h => matched_brackets (matched_renderItems h)
  | _, _, .map h => matched_braces (matched_renderEntries h)

/-- The items of such lists lead twins to twins. -/
theorem matched_renderItems : ∀ {vs ws : List Value}, Value.ItemsAlike vs ws →
    List.Forall₂ Matched (Literal.renderItems vs) (Literal.renderItems ws)
  | _, _, .nil => .nil
  | _, _, .cons first rest => .cons (matched_render first) (matched_renderItems rest)

/-- So do the entries of such maps, whatever their keys say. -/
theorem matched_renderEntries : ∀ {vs ws : List (Text × Value)}, Value.EntriesAlike vs ws →
    List.Forall₂ Matched (Literal.renderEntries vs) (Literal.renderEntries ws)
  | _, _, .nil => .nil
  | _, _, .cons key key' first rest => by
      have hcolon : Matched [':', ' '] [':', ' '] := .plain (by decide)
      exact .cons ((matched_quote key key').append (hcolon.append (matched_render first)))
        (matched_renderEntries rest)

end

end Scan

/-! ## Sections -/

open Scan (Twin Matched)

/-- Declarations of the same name on lines that lead twins to twins. -/
structure Declaration.Alike (d d' : Declaration) : Prop where
  name : d.name = d'.name
  lines : Matched d.line d'.line
  first : Layout.IsStatementLine d.line
  second : Layout.IsStatementLine d'.line

/-- Declarations of one name are alike if their initializers lead twins to twins and keep to one
line. -/
theorem Declaration.alike_of_matched {name t u : Text} (hname : isIdentifier name = true)
    (h : Matched t u) (ht : '\n' ∉ t) (hu : '\n' ∉ u) : Declaration.Alike ⟨name, t⟩ ⟨name, u⟩ := by
  have hopening := Scan.matched_inert (Scan.inert_opening hname)
  have hmark : Matched [';'] [';'] := .plain (by decide)
  exact ⟨rfl, (hopening.append h).append hmark, Layout.isStatementLine_declaration hname ht,
    Layout.isStatementLine_declaration hname hu⟩

namespace Layout

/-- The sections of such declarations. -/
theorem matched_declarations {ds ds' : List Declaration} (h : List.Forall₂ Declaration.Alike ds ds') :
    Matched (sectionText (Text.join ['\n'] (ds.map (·.line))))
      (sectionText (Text.join ['\n'] (ds'.map (·.line)))) := by
  have hfirst : ∀ line ∈ ds.map (·.line), IsStatementLine line := by
    simpa using ((List.forall₂_and_left ds ds').1 (h.imp fun d d' hd => ⟨hd.first, hd⟩)).1
  have hsecond : ∀ line ∈ ds'.map (·.line), IsStatementLine line := by
    simpa using ((List.forall₂_and_left ds' ds).1 (h.flip.imp fun d' d hd => ⟨hd.second, hd⟩)).1
  have hmoved : List.Forall₂ Matched ((ds.map (·.line)).map fun line => ' ' :: ' ' :: line)
      ((ds'.map (·.line)).map fun line => ' ' :: ' ' :: line) := by
    have hblanks : Matched [' ', ' '] [' ', ' '] := .plain (by decide)
    simp only [List.forall₂_map_left_iff, List.forall₂_map_right_iff]
    exact h.imp fun d d' hd => hblanks.append hd.lines
  have hfeed : Matched ['\n'] ['\n'] := .plain (by decide)
  cases h with
  | nil => exact .nil
  | cons hd hrest =>
      rw [sectionText_join (by simp) hfirst, sectionText_join (by simp) hsecond]
      exact (hfeed.append (.join (by decide) hmoved)).append hfeed

/-- Two frames for one handle. -/
theorem matched_harness {settings settings' : BuilderSettings}
    (hhandle : isIdentifier settings.handle = true) (h : settings.handle = settings'.handle) :
    Matched (harness settings) (harness settings') := by
  have hname := Scan.matched_inert (inert_of_isIdentifier hhandle)
  have hstring {s : Text} (hs : s.all Scan.isPlain = true) : Matched s s := .plain hs
  have hcall := ((hstring (s := "  var ".toList) (by decide)).append hname).append
    (hstring (s := " = Application(".toList) (by decide))
  have hbinding := ((hcall.append (Scan.matched_quote settings.application settings'.application)).append
    (hstring (s := [')']) (by decide))).append (hstring (s := [';', '\n']) (by decide))
  have hsetting := (((hstring (s := "  ".toList) (by decide)).append hname).append
    (hstring (s := ".includeStandardAdditions = true".toList) (by decide))).append
      (hstring (s := [';', '\n']) (by decide))
  rw [harness_eq, harness_eq, ← h]
  exact hbinding.append hsetting

end Layout

/-- A text that, scanned after a semicolon, ends outside every literal and comment with all its
literals ended. -/
structure LexicallyClosed (text : Text) : Prop where
  outside : (scan (';' :: text)).isOutside = true
  ended : ∀ l ∈ (strip (';' :: text)).literals, l.terminated = true

instance (text : Text) : Decidable (LexicallyClosed text) :=
  decidable_of_iff
    ((scan (';' :: text)).isOutside = true ∧
      ∀ l ∈ (strip (';' :: text)).literals, l.terminated = true)
    ⟨fun ⟨h1, h2⟩ => ⟨h1, h2⟩, fun ⟨h1, h2⟩ => ⟨h1, h2⟩⟩

open Scan in
/-- Self-contained fragments, one below the other, lead from between statements to between
statements. -/
theorem Scan.BetweenStatements.read_code {fragments : List (Text × Fragment)}
    (h : ∀ entry ∈ fragments, SelfContained entry.2.code) {stack : List Char} {s : State}
    (hs : BetweenStatements stack s) :
    BetweenStatements stack (s.read (Library.code fragments)) := by
  induction fragments generalizing s with
  | nil => exact hs
  | cons entry more ih =>
      have hentry := h entry List.mem_cons_self
      cases more with
      | nil => exact hentry.betweenStatements hs
      | cons other more =>
          have hends : EndsLine (entry.2.code ++ ['\n'] ++ ['\n']) := .inr ⟨_, rfl⟩
          have hsplit : Library.code (entry :: other :: more) =
              (entry.2.code ++ ['\n'] ++ ['\n']) ++ Library.code (other :: more) := by
            simp [Library.code, Text.join]
          have hbelow := (hentry.wholeStatements.append .nil) stack s hs
          rw [hsplit, State.read_append s hends]
          exact ih (fun e he => h e (List.mem_cons_of_mem _ he)) hbelow

open Scan in
/-- Self-contained fragments are closed together, however many there are. -/
theorem lexicallyClosed_code {fragments : List (Text × Fragment)}
    (h : ∀ entry ∈ fragments, SelfContained entry.2.code) :
    LexicallyClosed (Library.code fragments) := by
  let alone : State := ⟨.code, 1, [';'], []⟩
  have halone : BetweenStatements [] alone := ⟨⟨rfl, by simp [alone], rfl⟩, rfl⟩
  have hread : BetweenStatements [] (scan (';' :: Library.code fragments)) := halone.read_code h
  refine ⟨decide_eq_true hread.region, fun l hl => hread.ended l ?_⟩
  rw [strip, State.literals, hread.region] at hl
  exact List.mem_reverse.1 hl

namespace Layout

open Scan

/-- A section of closed text ends in code. -/
theorem region_sectionText {text : Text} (h : LexicallyClosed text) {stack : List Char} {s : State}
    (hs : BetweenStatements stack s) : (s.read (sectionText text)).region = .code := by
  rw [sectionText]
  split
  next => exact hs.region
  next =>
    -- The scan after a lone semicolon, which `h` speaks of, is similar to the one here.
    let alone : State := ⟨.code, 1, [';'], []⟩
    have halone : scan (';' :: text) = alone.read text := rfl
    have hbelow := hs.read_feed
    have hsimilar : Similar (s.read ['\n']) alone := ⟨by rw [hbelow.region], hbelow.fresh⟩
    have houtside : (alone.read text).region = .code := by
      have houtside := h.outside
      rwa [halone, State.isOutside, decide_eq_true_eq] at houtside
    have hended : ∀ l ∈ (alone.read text).literals, l.terminated = true := by
      have hended := h.ended
      rwa [strip, halone] at hended
    obtain ⟨hregion, hfound⟩ := hsimilar.closed hbelow.ended houtside hended
    have hfeed : ((s.read ['\n']).read (text ++ ['\n'])).region = .code ∧
        ((s.read ['\n']).read (text ++ ['\n'])).found = ((s.read ['\n']).read text).found := by
      rw [State.read_append_feed, State.step, hregion]
      exact ⟨rfl, rfl⟩
    have hends : EndsLine ['\n'] := .inr ⟨[], rfl⟩
    have haligned := aligned_indent hbelow.atLineStart text (by rw [hfeed.2]; exact hfound)
    have hmoved : ((s.read ['\n']).read (indent text ++ ['\n'])).region = .code :=
      Region.eq_code (by rw [← haligned.shape, hfeed.1]; rfl)
    show (s.read (['\n'] ++ (indent text ++ ['\n']))).region = .code
    rw [State.read_append s hends]
    exact hmoved

/-- **Scripts of such sections lead to twin scans.** -/
theorem twin_assemble {settings settings' : BuilderSettings}
    (hhandle : isIdentifier settings.handle = true) (h : settings.handle = settings'.handle)
    {fragments : Text} (hfragments : LexicallyClosed fragments) {ds ds' : List Declaration}
    (hdeclarations : List.Forall₂ Declaration.Alike ds ds') (body : Text) :
    Twin (scan (assemble settings [fragments, Text.join ['\n'] (ds.map (·.line)), body]))
      (scan (assemble settings' [fragments, Text.join ['\n'] (ds'.map (·.line)), body])) := by
  have hsplit (settings : BuilderSettings) (lines : Text) :
      scan (assemble settings [fragments, lines, body]) =
        ((((State.start.read opening).read (harness settings)).read (sectionText fragments)).read
          (sectionText lines)).read (sectionText body ++ closing) := by
    have hopening : EndsLine opening := .inr ⟨"(function () \x7b".toList, by decide⟩
    have hparts : assemble settings [fragments, lines, body] =
        opening ++ (harness settings ++ (sectionText fragments ++ (sectionText lines ++
          (sectionText body ++ closing)))) := by
      simp [assemble]
    rw [scan, hparts, State.read_append _ hopening, State.read_append _ (endsLine_harness settings),
      State.read_append _ (endsLine_sectionText fragments),
      State.read_append _ (endsLine_sectionText lines)]
  have hbegin := betweenStatements_opening
  obtain ⟨hharness, -⟩ := matched_harness hhandle h _ _ none none (.refl _) hbegin.region
  have hfirst := hharness.readBefore none (sectionText fragments)
  have hcode := region_sectionText hfragments (betweenStatements_harness hhandle hbegin)
  obtain ⟨hlines, -⟩ := matched_declarations hdeclarations _ _ none none hfirst hcode
  rw [hsplit, hsplit]
  exact hlines.readBefore none _

end Layout

/-! ## Builders -/

namespace Builder

/-- Steps that are the same but for what texts bound as texts and patterns of regular expressions
say. -/
inductive Step.Alike : Step → Step → Prop where
  | text (name : Text) {v w : Value} (h : v.Alike w) :
      Alike (.variable name v .text) (.variable name w .text)
  | number (name : Text) (v : Value) : Alike (.variable name v .number) (.variable name v .number)
  | boolean (name : Text) (v : Value) :
      Alike (.variable name v .boolean) (.variable name v .boolean)
  | regexPattern (name pattern pattern' flags : Text) :
      Alike (.regexPattern name pattern flags) (.regexPattern name pattern' flags)
  | regexSource (name pattern pattern' flags : Text) :
      Alike (.regexSource name pattern flags) (.regexSource name pattern' flags)
  | catalog (name entry : Text) : Alike (.catalog name entry) (.catalog name entry)
  | function (name : Text) (f : Fragment) : Alike (.function name f) (.function name f)
  | fragment (name : Text) : Alike (.fragment name) (.fragment name)
  | code (text : Text) : Alike (.code text) (.code text)
  | tryCatch (body : Text) (handler : Option Text) :
      Alike (.tryCatch body handler) (.tryCatch body handler)
  | library (other : Library) : Alike (.library other) (.library other)

/-- Builders that are the same but for the application and for what was bound. -/
structure Alike (b b' : Builder) : Prop where
  handle : b.settings.handle = b'.settings.handle
  extraBuiltins : b.settings.extraBuiltins = b'.settings.extraBuiltins
  library : b.library = b'.library
  selected : b.selected = b'.selected
  declarations : List.Forall₂ Declaration.Alike b.declarations b'.declarations
  body : b.body = b'.body

namespace Alike

variable {b b' c : Builder}

/-- The same names are taken in both. -/
theorem taken (h : b.Alike b') : b.taken = b'.taken := by
  have hnames : b.declarations.map (·.name) = b'.declarations.map (·.name) := by
    rw [← List.forall₂_eq_eq_eq, List.forall₂_map_left_iff, List.forall₂_map_right_iff]
    exact h.declarations.imp fun d d' hd => hd.name
  rw [Builder.taken, Builder.taken, h.handle, hnames, h.selected]

/-- So a name is refused in both for the same reason, or in neither. -/
theorem refusal? (h : b.Alike b') (name : Text) : b.refusal? name = b'.refusal? name := by
  rw [Builder.refusal?, Builder.refusal?, h.taken]

/-- Declarations that are alike leave the builders alike. -/
theorem declare (h : b.Alike b') {name t u : Text} (hd : Declaration.Alike ⟨name, t⟩ ⟨name, u⟩) :
    (b.declare name t).Alike (b'.declare name u) where
  handle := h.handle
  extraBuiltins := h.extraBuiltins
  library := h.library
  selected := h.selected
  declarations := List.rel_append h.declarations (.cons hd .nil)
  body := h.body

/-- Two bindings of one name. -/
theorem addVariable (h : b.Alike b') {name : Text} {v w : Value} {mode : BindingMode}
    (hinitializers : ∀ t, mode.initializer? v = some t → ∃ u, mode.initializer? w = some u ∧
      Matched t u ∧ '\n' ∉ t ∧ '\n' ∉ u) (hc : b.addVariable name v mode = .ok c) :
    ∃ c', b'.addVariable name w mode = .ok c' ∧ c.Alike c' := by
  obtain ⟨hname, t, ht, rfl⟩ := addVariable_eq_ok_iff.1 hc
  obtain ⟨u, hu, hmatched, hfeed, hfeed'⟩ := hinitializers t ht
  have hd := Declaration.alike_of_matched (isIdentifier_of_refusal? hname) hmatched hfeed hfeed'
  rw [h.refusal? name] at hname
  exact ⟨_, addVariable_eq_ok_iff.2 ⟨hname, u, hu, rfl⟩, h.declare hd⟩

/-- A binding in number mode or truth-value mode, twice. -/
theorem addVariable_same (h : b.Alike b') {name : Text} {v : Value} {mode : BindingMode}
    (hmode : mode = .number ∨ mode = .boolean) (hc : b.addVariable name v mode = .ok c) :
    ∃ c', b'.addVariable name v mode = .ok c' ∧ c.Alike c' := by
  refine h.addVariable (fun t ht => ?_) hc
  have hinert := Scan.inert_initializer hmode ht
  exact ⟨t, ht, Scan.matched_inert hinert, hinert.no_feed, hinert.no_feed⟩

/-- A regular expression is accepted in both, whatever its pattern: only its name and flags can be
refused. -/
theorem addRegex (h : b.Alike b') {name content content' flags : Text}
    (hcontent : Literal.Sealed content) (hcontent' : Literal.Sealed content')
    (hc : b.addRegex name content flags = .ok c) :
    ∃ c', b'.addRegex name content' flags = .ok c' ∧ c.Alike c' := by
  obtain ⟨hname, hflags, rfl⟩ := addRegex_eq_ok_iff.1 hc
  have hd := Declaration.alike_of_matched (isIdentifier_of_refusal? hname)
    (Scan.matched_regexInitializer hcontent hcontent' hflags)
    (no_feed_regexInitializer hcontent hflags) (no_feed_regexInitializer hcontent' hflags)
  rw [h.refusal? name] at hname
  exact ⟨_, addRegex_eq_ok_iff.2 ⟨hname, hflags, rfl⟩, h.declare hd⟩

/-- A function is accepted in both, and its code is the same in both. -/
theorem addFunction (h : b.Alike b') {name : Text} {f : Fragment}
    (hc : b.addFunction name f = .ok c) : ∃ c', b'.addFunction name f = .ok c' ∧ c.Alike c' := by
  obtain ⟨hname, rfl⟩ := addFunction_eq_ok_iff.1 hc
  rw [h.refusal? name] at hname
  refine ⟨_, addFunction_eq_ok_iff.2 ⟨hname, rfl⟩, ?_⟩
  rw [← h.library, ← h.selected]
  exact ⟨h.handle, h.extraBuiltins, rfl, rfl, h.declarations, h.body⟩

/-- A fragment is accepted in both. -/
theorem addFragment (h : b.Alike b') {name : Text} (hc : b.addFragment name = .ok c) :
    ∃ c', b'.addFragment name = .ok c' ∧ c.Alike c' := by
  rcases addFragment_eq_ok_iff.1 hc with ⟨hselected, rfl⟩ | ⟨hselected, hknown, hname, rfl⟩
  · rw [h.selected] at hselected
    exact ⟨b', addFragment_eq_ok_iff.2 (.inl ⟨hselected, rfl⟩), h⟩
  · rw [h.selected] at hselected
    rw [h.library] at hknown
    rw [h.refusal? name] at hname
    refine ⟨_, addFragment_eq_ok_iff.2 (.inr ⟨hselected, hknown, hname, rfl⟩), ?_⟩
    rw [← h.selected]
    exact ⟨h.handle, h.extraBuiltins, h.library, rfl, h.declarations, h.body⟩

/-- A block goes into both bodies. -/
theorem addBlock (h : b.Alike b') (block : Block) : (b.addBlock block).Alike (b'.addBlock block) where
  handle := h.handle
  extraBuiltins := h.extraBuiltins
  library := h.library
  selected := h.selected
  declarations := h.declarations
  body := by rw [Builder.addBlock, Builder.addBlock, h.body]

/-- **One step**, taken twice. -/
theorem apply (h : b.Alike b') {step step' : Step} (hstep : step.Alike step')
    (hc : b.apply step = .ok c) : ∃ c', b'.apply step' = .ok c' ∧ c.Alike c' := by
  cases hstep with
  | text name hv =>
      have hcall : b.addVariable name _ .text = .ok c := hc
      refine h.addVariable (fun t ht => ?_) hcall
      obtain rfl := Option.some.inj ht
      exact ⟨_, rfl, Scan.matched_render hv, Literal.no_feed_render _, Literal.no_feed_render _⟩
  | number name v => exact h.addVariable_same (.inl rfl) hc
  | boolean name v => exact h.addVariable_same (.inr rfl) hc
  | regexPattern name pattern pattern' flags =>
      exact h.addRegex (Literal.sealed_sealContent pattern) (Literal.sealed_sealContent pattern') hc
  | regexSource name pattern pattern' flags =>
      exact h.addRegex (Literal.sealed_escape pattern) (Literal.sealed_escape pattern') hc
  | catalog name entry =>
      obtain ⟨e, hentry, hregex⟩ := addCatalogPattern_eq_ok_iff.1 hc
      have hsealed := Literal.sealed_escape e.pattern
      obtain ⟨c', hc', halike⟩ := h.addRegex hsealed hsealed hregex
      exact ⟨c', addCatalogPattern_eq_ok_iff.2 ⟨e, hentry, hc'⟩, halike⟩
  | function name f => exact h.addFunction hc
  | fragment name => exact h.addFragment hc
  | code text =>
      obtain rfl := Except.ok.inj hc
      exact ⟨_, rfl, h.addBlock _⟩
  | tryCatch body handler =>
      obtain rfl := Except.ok.inj hc
      exact ⟨_, rfl, h.addBlock _⟩
  | library other =>
      obtain rfl := Except.ok.inj hc
      exact ⟨_, rfl, h.handle, h.extraBuiltins, rfl, h.selected, h.declarations, h.body⟩

/-- **Any number of steps**, taken twice. -/
theorem applyAll (h : b.Alike b') {steps steps' : List Step}
    (hsteps : List.Forall₂ Step.Alike steps steps') (hc : b.applyAll steps = .ok c) :
    ∃ c', b'.applyAll steps' = .ok c' ∧ c.Alike c' := by
  induction hsteps generalizing b b' with
  | nil =>
      obtain rfl := applyAll_nil_eq_ok_iff.1 hc
      exact ⟨b', rfl, h⟩
  | cons hstep _ ih =>
      obtain ⟨next, hnext, hrest⟩ := applyAll_cons_eq_ok_iff.1 hc
      obtain ⟨next', hnext', halike⟩ := h.apply hstep hnext
      obtain ⟨c', hc', halike'⟩ := ih halike hrest
      exact ⟨c', applyAll_cons_eq_ok_iff.2 ⟨next', hnext', hc'⟩, halike'⟩

/-- The same fragments are emitted, or refused for the same reason. -/
theorem orderedFragments (h : b.Alike b') : b.orderedFragments = b'.orderedFragments := by
  have hoffence (name : Text) (f : Fragment) : b.offence? name f = b'.offence? name f := by
    rw [offence?, offence?, BuilderSettings.symbols, BuilderSettings.symbols, h.selected, h.taken,
      h.library, h.extraBuiltins]
  simp only [Builder.orderedFragments, h.selected, h.library, hoffence]

/-- **Both are refused for the same reason, or lead to twin scans.** -/
theorem build (h : b.Alike b')
    (hclosed : ∀ ordered, b.orderedFragments = .ok ordered →
      LexicallyClosed (Library.code ordered)) :
    (∃ e, b.build = .error e ∧ b'.build = .error e) ∨
      ∃ script script', b.build = .ok script ∧ b'.build = .ok script' ∧
        Twin (scan script) (scan script') := by
  rw [Builder.build, Builder.build, ← h.handle, ← h.orderedFragments]
  split
  next => exact .inl ⟨_, rfl, rfl⟩
  next hhandle =>
    cases hordered : b.orderedFragments with
    | error e => exact .inl ⟨e, rfl, rfl⟩
    | ok ordered =>
        have htwin := Layout.twin_assemble (by simpa using hhandle) h.handle
          (hclosed ordered hordered) h.declarations (Text.join ['\n', '\n'] (b.body.map Block.text))
        refine .inr ⟨_, _, rfl, ?_, htwin⟩
        rw [h.body]

end Alike

/-- **A library of self-contained fragments** has closed code for every selection. -/
theorem lexicallyClosed_orderedFragments {b : Builder}
    (h : ∀ entry ∈ b.library.entries, SelfContained entry.2.code)
    {ordered : List (Text × Fragment)} (hordered : b.orderedFragments = .ok ordered) :
    LexicallyClosed (Library.code ordered) := by
  refine lexicallyClosed_code fun entry hentry => ?_
  have hfind := find?_of_mem_orderedFragments hordered hentry
  exact h entry (NameMap.mem_of_find? hfind)

/-- **Injected values do not change how a script is judged.**  If the code of the emitted fragments
is closed, then with another application, other bound texts and other patterns the same steps are
accepted, and both builds are refused for the same reason or both succeed; and then every check
judges both scripts alike, but for warnings about the escaping. -/
theorem sameJudgement_build {settings : BuilderSettings} (application : Text) {library : Library}
    {steps steps' : List Step} (hsteps : List.Forall₂ Step.Alike steps steps') {b : Builder}
    (hb : ((ofSettings settings).withLibrary library).applyAll steps = .ok b)
    (hclosed : ∀ ordered, b.orderedFragments = .ok ordered →
      LexicallyClosed (Library.code ordered)) :
    ∃ b', ((ofSettings { settings with application := application }).withLibrary library).applyAll
        steps' = .ok b' ∧
      ((∃ e, b.build = .error e ∧ b'.build = .error e) ∨
        ∃ script script', b.build = .ok script ∧ b'.build = .ok script' ∧
          ∀ v : Validator, SameJudgement (v.validate script) (v.validate script')) := by
  have hstart : ((ofSettings settings).withLibrary library).Alike
      ((ofSettings { settings with application := application }).withLibrary library) :=
    ⟨rfl, rfl, rfl, rfl, .nil, rfl⟩
  obtain ⟨b', hb', halike⟩ := hstart.applyAll hsteps hb
  refine ⟨b', hb', ?_⟩
  rcases halike.build hclosed with hrefused | ⟨script, script', hscript, hscript', htwin⟩
  · exact .inl hrefused
  · exact .inr ⟨script, script', hscript, hscript', fun v => v.sameJudgement htwin⟩

/-- A function is defined, and a text and a pattern bound that look like open code the second time:
both scripts are built and judged alike. -/
theorem sameJudgement_build_open_quote :
    let f : Fragment := .ofCode ['f', '(', ')', ';']
    let steps (t : Text) : List Step :=
      [.function ['f'] f, .variable ['s'] (.text t) .text, .regexSource ['r'] t []]
    List.Forall₂ Step.Alike (steps ['a']) (steps ['"', '/', '*']) ∧
      ∃ b b' script script',
        ((ofSettings {}).withLibrary .empty).applyAll (steps ['a']) = .ok b ∧
        ((ofSettings { application := ['\''] }).withLibrary .empty).applyAll
          (steps ['"', '/', '*']) = .ok b' ∧
        b.build = .ok script ∧ b'.build = .ok script' ∧
        ∀ v : Validator, SameJudgement (v.validate script) (v.validate script') := by
  intro f steps
  have hsteps : List.Forall₂ Step.Alike (steps ['a']) (steps ['"', '/', '*']) :=
    .cons (.function _ _) (.cons (.text _ (.text _ _)) (.cons (.regexSource _ _ _ _) .nil))
  let b : Builder := ⟨{}, NameMap.empty.insert ['f'] f, [['f']],
    [⟨['s'], Literal.render (.text ['a'])⟩, ⟨['r'], regexInitializer ['a'] []⟩], []⟩
  have hb : ((ofSettings {}).withLibrary .empty).applyAll (steps ['a']) = .ok b := rfl
  have hordered : b.orderedFragments = .ok [(['f'], f)] := by
    have hneeds : b.library.dependencies ['f'] = [] := rfl
    have horder : Graph.ordered b.library.dependencies (Library.dedup [['f']]) = .ok [['f']] := by
      simp [Library.dedup, Graph.ordered, Graph.visit, hneeds]
    have hneeded : b.library.withDependencies [['f']] = .ok [['f']] := by decide +kernel
    have hunknown : b.library.firstUnknown? [['f']] = none := rfl
    have hselected : b.selected = [['f']] := rfl
    simp only [Builder.orderedFragments, Library.closure, hselected, hneeded, Library.resolveOrder,
      hunknown, horder]
    rfl
  have hlibrary : ∀ entry ∈ b.library.entries, SelfContained entry.2.code := by decide +kernel
  obtain ⟨script, hscript⟩ : ∃ script, b.build = .ok script := by
    rw [build, hordered]
    exact ⟨_, rfl⟩
  obtain ⟨b', hb', hbuilds⟩ := sameJudgement_build ['\''] hsteps hb fun _ h =>
    lexicallyClosed_orderedFragments hlibrary h
  rcases hbuilds with ⟨e, he, -⟩ | ⟨script, script', hscript, hscript', hsame⟩
  · rw [hscript] at he
    cases he
  · exact ⟨hsteps, b, b', script, script', hb, hb', hscript, hscript', hsame⟩

/-- Codes that are closed one by one need not be closed together: read after a semicolon the slash
of the second opens a regular expression, but behind the first it divides, and opens a template
with what follows.  Whether the bound text ends that template decides over the whole script. -/
theorem valid_of_closed_apart_depends_on_text :
    let library : Library :=
      (NameMap.empty.insert ['a'] (.ofCode ['x'])).insert ['b'] (.ofCode ['/', '\x60', '/'])
    let steps (t : Text) : List Step :=
      [.fragment ['a'], .fragment ['b'], .variable ['s'] (.text t) .text]
    let v := Validator.ofSettings { hostBuiltins := false, extraBuiltins := ["Application".toList] }
    (∀ entry ∈ library.entries, LexicallyClosed entry.2.code) ∧
      List.Forall₂ Step.Alike (steps ['a']) (steps ['\x60']) ∧
      ∃ b b' script script', ((ofSettings {}).withLibrary library).applyAll (steps ['a']) = .ok b ∧
        ((ofSettings {}).withLibrary library).applyAll (steps ['\x60']) = .ok b' ∧
        b.build = .ok script ∧ b'.build = .ok script' ∧
        (v.validate script).valid = false ∧ (v.validate script').valid = true := by
  intro library steps v
  refine ⟨by decide +kernel,
    .cons (.fragment _) (.cons (.fragment _) (.cons (.text _ (.text _ _)) .nil)), ?_⟩
  let b (t : Text) : Builder :=
    ⟨{}, library, [['a'], ['b']], [⟨['s'], Literal.render (.text t)⟩], []⟩
  have hordered (t : Text) : (b t).orderedFragments = .ok library.entries := by
    have hneeds (name : Text) (h : name ∈ [['a'], ['b']]) : library.dependencies name = [] := by
      revert name
      decide +kernel
    have horder : Graph.ordered library.dependencies (Library.dedup [['a'], ['b']]) =
        .ok [['a'], ['b']] := by
      simp [Library.dedup, Graph.ordered, Graph.visit, hneeds]
    have hneeded : library.withDependencies [['a'], ['b']] = .ok [['a'], ['b']] := by
      decide +kernel
    have hunknown : library.firstUnknown? [['a'], ['b']] = none := rfl
    simp only [b, Builder.orderedFragments, Library.closure, hneeded, Library.resolveOrder,
      hunknown, horder]
    rfl
  have hbuild (t : Text) : (b t).build = .ok (Layout.assemble {}
      [Library.code library.entries, Declaration.line ⟨['s'], Literal.render (.text t)⟩, []]) := by
    rw [build, hordered t]
    rfl
  refine ⟨b ['a'], b ['\x60'], _, _, rfl, rfl, hbuild _, hbuild _, ?_, ?_⟩
  · rw [Validator.valid_validate, Validator.errors_validate]
    decide +kernel
  · rw [Validator.valid_validate, Validator.errors_validate]
    decide +kernel

end Builder

end Scriptwright
