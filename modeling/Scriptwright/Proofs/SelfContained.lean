import Scriptwright.Proofs.Indentation
import Scriptwright.Proofs.SealedContent
import Scriptwright.Builder

/-!
# Code that can stand between statements

Whether a text leaves literals, comments or brackets open depends on the place it
is read at; whether a slash at its beginning is a division depends on what came
before.  `SelfContained` fixes both: read right after a finished statement, the
text leaves nothing open and finishes its own last statement.

Then the text can stand wherever a statement can (`BetweenStatements`), inside
any brackets: **it is read there as it is read alone, and leaves the scanner
between statements again** (`SelfContained.wholeStatements`).  Texts with that
property (`WholeStatements`) keep it when they are moved in
(`WholeStatements.indent`), put one below the other (`WholeStatements.join`) or
guarded (`WholeStatements.guard`).
-/

namespace Scriptwright

namespace Scan

open Delimiters (unwind isBracket)
open Literal (Sealed)

/-- Outside every literal and comment, after literals that all ended, with these brackets open. -/
structure InCode (stack : List Char) (s : State) : Prop where
  region : s.region = .code
  ended : ∀ l ∈ s.found, l.terminated = true
  brackets : unwind [] s.codeReversed.reverse = some stack

/-- In code where a statement may begin. -/
structure BetweenStatements (stack : List Char) (s : State) : Prop extends InCode stack s where
  fresh : slashContext s.codeReversed = .mark true

/-- A text that leads from code to code, with other brackets open behind it perhaps. -/
def Leads (t : Text) (stack stack' : List Char) : Prop :=
  ∀ (s : State) (next : Option Char), InCode stack s → InCode stack' (s.readBefore next t)

theorem Leads.nil (stack : List Char) : Leads [] stack stack := fun _ _ hs => hs

theorem Leads.append {t u : Text} {stack stack' stack'' : List Char} (ht : Leads t stack stack')
    (hu : Leads u stack' stack'') : Leads (t ++ u) stack stack'' := by
  intro s next hs
  rw [State.readBefore_append]
  exact hu _ next (ht s _ hs)

/-- Texts that each lead back to the same brackets, with such a separator. -/
theorem Leads.join {separator : Text} {texts : List Text} {stack : List Char}
    (hseparator : Leads separator stack stack) (h : ∀ t ∈ texts, Leads t stack stack) :
    Leads (Text.join separator texts) stack stack :=
  Text.holds_join (.nil stack) (fun _ _ ht hu => (ht.append hseparator).append hu) h

/-- Plain text leads where its brackets lead. -/
theorem leads_plain {t : Text} {stack stack' : List Char} (h : t.all isPlain = true)
    (hbrackets : unwind stack t = some stack') : Leads t stack stack' := by
  intro s next hs
  rw [State.readBefore_plain h s hs.region]
  refine ⟨rfl, hs.ended, ?_⟩
  rw [List.reverse_append, List.reverse_reverse, Delimiters.unwind_append_of_eq hs.brackets,
    hbrackets]

/-- A sealed text between quotes leads back to the brackets before it. -/
theorem leads_quoted {content : Text} (h : Sealed content) (stack : List Char) :
    Leads ('"' :: content ++ ['"']) stack stack := by
  intro s next hs
  rw [State.readBefore_quoted h s hs.region]
  refine ⟨rfl, ?_, ?_⟩
  · rintro l hl
    rcases List.mem_cons.1 hl with rfl | hl
    · rfl
    · exact hs.ended l hl
  · have hquote : isBracket '"' = false := by decide
    have hspace : isBracket ' ' = false := by decide
    rw [← Delimiters.unwind_filter, List.filter_reverse, List.cons_append,
      List.filter_cons_of_neg (by simp [hquote]), List.filter_append, List.filter_replicate,
      if_neg (by simp [hspace]), List.nil_append, List.filter_cons_of_neg (by simp [hquote]),
      ← List.filter_reverse, Delimiters.unwind_filter]
    exact hs.brackets

/-- A mark after which a statement may begin. -/
def beginsStatement (c : Char) : Bool := c == ';' || c == '{' || c == '}'

/-- Behind such a mark and blanks a statement may begin. -/
theorem slashContext_fresh {out code : Text} (hcode : slashContext code = .mark true)
    (hout : ∀ c, (out.dropWhile isBlank).head? = some c → beginsStatement c = true) :
    slashContext (out ++ code) = .mark true := by
  induction out with
  | nil => exact hcode
  | cons c out ih =>
      rw [List.cons_append, slashContext]
      by_cases hblank : isBlank c = true
      · rw [List.dropWhile_cons_of_pos hblank] at hout
        rw [SlashContext.push_blank hblank, ih hout]
        rfl
      · rw [List.dropWhile_cons_of_neg hblank] at hout
        have hc := hout c rfl
        simp only [beginsStatement, Bool.or_eq_true, beq_iff_eq] at hc
        rcases hc with (rfl | rfl) | rfl <;> rfl

/-- Behind code and such a mark at the end of a line a statement may begin. -/
theorem InCode.read_mark {s : State} {stack between stack' : List Char} (hs : InCode stack s)
    {t : Text} (ht : Leads t stack between) {c : Char} (hc : beginsStatement c = true)
    (hturn : unwind between [c, '\n'] = some stack') :
    BetweenStatements stack' (s.read (t ++ [c, '\n'])) := by
  simp only [beginsStatement, Bool.or_eq_true, beq_iff_eq] at hc
  have hplain : [c, '\n'].all isPlain = true := by rcases hc with (rfl | rfl) | rfl <;> decide
  refine ⟨ht.append (leads_plain hplain hturn) s none hs, ?_⟩
  rw [State.read, State.readBefore_append, State.readBefore_plain hplain _ (ht s _ hs).region]
  rcases hc with (rfl | rfl) | rfl <;> rfl

/-- A line feed where a statement may begin. -/
theorem BetweenStatements.read_feed {s : State} {stack : List Char}
    (hs : BetweenStatements stack s) : BetweenStatements stack (s.read ['\n']) := by
  have hplain : ['\n'].all isPlain = true := by decide
  refine ⟨leads_plain hplain rfl s none hs.toInCode, ?_⟩
  rw [State.read, State.readBefore_plain hplain s hs.region]
  exact slashContext_fresh hs.fresh (by rintro c ⟨⟩)

theorem BetweenStatements.atLineStart {s : State} {stack : List Char}
    (hs : BetweenStatements stack s) : AtLineStart s where
  settled := by rw [hs.fresh]; rfl
  place := .inl (by rw [hs.region]; rfl)

/-- Literals that ended in the same ways all ended if one of the lists says so. -/
theorem terminated_of_endings {ls ls' : List ScriptLiteral}
    (h : ls.map ending = ls'.map ending) (hended : ∀ l ∈ ls', l.terminated = true) :
    ∀ l ∈ ls, l.terminated = true := by
  intro l hl
  have hmem : ending l ∈ ls'.map ending := h ▸ List.mem_map_of_mem hl
  obtain ⟨l', hl', heq⟩ := List.mem_map.1 hmem
  have hterminated : l'.terminated = l.terminated := congrArg (·.2.2) heq
  rw [← hterminated, hended l' hl']

/-- An aligned scan stands between the same statements. -/
theorem Aligned.betweenStatements {s t : State} (h : Aligned s t) {stack : List Char}
    (hs : BetweenStatements stack s) : BetweenStatements stack t where
  region := Region.eq_code (by rw [← h.shape, hs.region]; rfl)
  ended := terminated_of_endings h.endings.symm hs.ended
  brackets := by
    rw [← Delimiters.unwind_filter, List.filter_reverse, ← h.brackets, ← List.filter_reverse,
      Delimiters.unwind_filter, hs.brackets]
  fresh := h.context ▸ hs.fresh

/-- A text that can stand, with a line feed behind it, wherever a statement can. -/
def WholeStatements (t : Text) : Prop :=
  ∀ (stack : List Char) (s : State), BetweenStatements stack s →
    BetweenStatements stack (s.read (t ++ ['\n']))

theorem WholeStatements.nil : WholeStatements [] := fun _ _ hs => hs.read_feed

/-- Whole statements moved in are whole statements. -/
theorem WholeStatements.indent {t : Text} (h : WholeStatements t) :
    WholeStatements (Layout.indent t) := by
  intro stack s hs
  have hread := h stack s hs
  exact (aligned_indent hs.atLineStart t hread.ended).betweenStatements hread

/-- Whole statements below whole statements. -/
theorem WholeStatements.append {t u : Text} (ht : WholeStatements t) (hu : WholeStatements u) :
    WholeStatements (t ++ '\n' :: u) := by
  intro stack s hs
  have hends : EndsLine (t ++ ['\n']) := .inr ⟨t, rfl⟩
  have hsplit : t ++ '\n' :: u ++ ['\n'] = (t ++ ['\n']) ++ (u ++ ['\n']) := by simp
  rw [hsplit, State.read_append s hends]
  exact hu stack _ (ht stack s hs)

/-- Texts one below the other, with line feeds between them. -/
theorem WholeStatements.join {feeds : Text} (hfeeds : feeds = [] ∨ feeds = ['\n'])
    {texts : List Text} (h : ∀ t ∈ texts, WholeStatements t) :
    WholeStatements (Text.join ('\n' :: feeds) texts) := by
  refine Text.holds_join .nil (fun t u ht hu => ?_) h
  rw [List.append_assoc]
  rcases hfeeds with rfl | rfl
  · exact ht.append hu
  · exact ht.append (WholeStatements.nil.append hu)

/-- A text that leaves nothing open after one state leaves nothing open after a similar one. -/
theorem Similar.closed {s alone : State} (h : Similar s alone)
    (hs : ∀ l ∈ s.found, l.terminated = true) {text : Text}
    (hregion : (alone.read text).region = .code)
    (hended : ∀ l ∈ (alone.read text).literals, l.terminated = true) :
    (s.read text).region = .code ∧ ∀ l ∈ (s.read text).found, l.terminated = true := by
  have hrun := h.readBefore none text
  obtain ⟨new, newAlone, hnew, hnewAlone, hendings⟩ := hrun.recorded
  refine ⟨Region.eq_code (by rw [State.read, hrun.shape, ← State.read, hregion]; rfl), ?_⟩
  intro l hl
  rw [State.read, hnew] at hl
  rcases List.mem_append.1 hl with hl | hl
  · refine terminated_of_endings hendings (fun l' hl' => hended l' ?_) l hl
    rw [State.literals, hregion, State.read, hnewAlone]
    exact List.mem_reverse.2 (List.mem_append_left _ hl')
  · exact hs l hl

/-- **Guarded code.**  Whole statements in a guarded block, with whole statements in its handler,
are a whole statement. -/
theorem WholeStatements.guard {body handler : Text} (hbody : WholeStatements body)
    (hhandler : WholeStatements handler) :
    WholeStatements (Block.guarded body handler).text := by
  intro stack s hs
  have hsplit : (Block.guarded body handler).text ++ ['\n'] =
      ("try ".toList ++ ['{', '\n']) ++ ((Layout.indent body ++ ['\n']) ++
        (("\x7d catch (e) ".toList ++ ['{', '\n']) ++
          ((Layout.indent handler ++ ['\n']) ++ ([] ++ ['}', '\n'])))) := by
    have htext : (Block.guarded body handler).text =
        "try \x7b\n".toList ++ Layout.indent body ++ "\n\x7d catch (e) \x7b\n".toList ++
          Layout.indent handler ++ "\n\x7d".toList := rfl
    rw [htext]
    simp
  have hline (t : Text) (c : Char) : EndsLine (t ++ [c, '\n']) := .inr ⟨t ++ [c], by simp⟩
  have hmoved (t : Text) : EndsLine (Layout.indent t ++ ['\n']) := .inr ⟨_, rfl⟩
  rw [hsplit, State.read_append s (hline _ _), State.read_append _ (hmoved _),
    State.read_append _ (hline _ _), State.read_append _ (hmoved _)]
  have hbrace (t : Text) (ht : t.all isPlain = true) {between : List Char}
      (hbetween : unwind between t = some stack) : Leads t between stack :=
    leads_plain ht hbetween
  have hopen := hs.read_mark (hbrace "try ".toList (by decide) rfl) (c := '{') rfl rfl
  have hcatch := (hbody.indent _ _ hopen).read_mark
    (hbrace "\x7d catch (e) ".toList (by decide) rfl) (c := '{') rfl rfl
  exact (hhandler.indent _ _ hcatch).read_mark (.nil _) (c := '}') rfl rfl

end Scan

/-- The code that a text leaves when it is scanned after a finished statement. -/
def codeAfterStatement (text : Text) : Text := (strip (";\n".toList ++ text)).code.drop 2

/-- A text that, scanned after a finished statement, ends outside every literal and comment with all
its literals ended, closes its own brackets and no others, and is blank or finishes its last
statement. -/
structure SelfContained (text : Text) : Prop where
  outside : (scan (";\n".toList ++ text)).isOutside = true
  ended : ∀ l ∈ (strip (";\n".toList ++ text)).literals, l.terminated = true
  balanced : Delimiters.isBalanced (codeAfterStatement text) = true
  finished : (Text.trimEnd (codeAfterStatement text)).getLast? ∈ [none, some ';', some '}']

instance (text : Text) : Decidable (SelfContained text) :=
  decidable_of_iff
    ((scan (";\n".toList ++ text)).isOutside = true ∧
      (∀ l ∈ (strip (";\n".toList ++ text)).literals, l.terminated = true) ∧
      Delimiters.isBalanced (codeAfterStatement text) = true ∧
      (Text.trimEnd (codeAfterStatement text)).getLast? ∈ [none, some ';', some '}'])
    ⟨fun ⟨h1, h2, h3, h4⟩ => ⟨h1, h2, h3, h4⟩, fun ⟨h1, h2, h3, h4⟩ => ⟨h1, h2, h3, h4⟩⟩

open Scan in
/-- Between statements a text leaves that code, whatever code came before, and it ends literals of
the same kinds in the same ways. -/
theorem Scan.BetweenStatements.emits {stack : List Char} {s : State} (hs : BetweenStatements stack s)
    (text : Text) :
    (s.read text).codeReversed = (codeAfterStatement text).reverse ++ s.codeReversed ∧
      ∃ new, (s.read text).found = new ++ s.found ∧
        new.map ending = (scan (";\n".toList ++ text)).found.map ending := by
  let alone : State := ⟨.code, 2, ['\n', ';'], []⟩
  have hends : EndsLine ";\n".toList := .inr ⟨[';'], rfl⟩
  have halone : scan (";\n".toList ++ text) = alone.read text := by
    rw [scan, State.read_append _ hends]
    rfl
  have hsimilar : Similar s alone := ⟨by rw [hs.region], hs.fresh⟩
  have hrun := hsimilar.readBefore none text
  obtain ⟨out, hout, houtAlone⟩ := hrun.emitted
  obtain ⟨new, newAlone, hnew, hnewAlone, hendings⟩ := hrun.recorded
  have hcode : codeAfterStatement text = out.reverse := by
    rw [codeAfterStatement, strip, halone, State.read, houtAlone]
    simp [alone]
  refine ⟨by rw [hcode, List.reverse_reverse]; exact hout, new, hnew, ?_⟩
  rw [hendings, halone, State.read, hnewAlone, List.append_nil]

open Scan Delimiters in
/-- Self-contained code leads from between statements to between statements. -/
theorem SelfContained.betweenStatements {text : Text} (h : SelfContained text) {stack : List Char}
    {s : State} (hs : BetweenStatements stack s) : BetweenStatements stack (s.read text) := by
  -- The scan after a lone semicolon, which `h` speaks of, runs in step with the scan from `s`.
  let alone : State := ⟨.code, 2, ['\n', ';'], []⟩
  have hends : EndsLine ";\n".toList := .inr ⟨[';'], rfl⟩
  have halone : scan (";\n".toList ++ text) = alone.read text := by
    rw [scan, State.read_append _ hends]
    rfl
  have hsimilar : Similar s alone := ⟨by rw [hs.region], hs.fresh⟩
  have houtside : (alone.read text).region = .code := by
    have houtside := h.outside
    rwa [halone, State.isOutside, decide_eq_true_eq] at houtside
  have hended : ∀ l ∈ (alone.read text).literals, l.terminated = true := by
    have hended := h.ended
    rwa [strip, halone] at hended
  obtain ⟨hregion, hfound⟩ := hsimilar.closed hs.ended houtside hended
  have hout := (hs.emits text).1
  refine ⟨⟨hregion, hfound, ?_⟩, ?_⟩
  · rw [hout, List.reverse_append, List.reverse_reverse, unwind_append_of_eq hs.brackets]
    exact unwind_inside ((isBalanced_iff _).1 h.balanced) stack
  · rw [hout]
    have hfinished := h.finished
    rw [Text.trimEnd, List.getLast?_reverse] at hfinished
    refine slashContext_fresh hs.fresh fun c hc => ?_
    rw [hc] at hfinished
    have hmark : c = ';' ∨ c = '}' := by simpa using hfinished
    rcases hmark with rfl | rfl <;> rfl

open Scan in
/-- **Self-contained code is whole statements**, wherever it stands. -/
theorem SelfContained.wholeStatements {text : Text} (h : SelfContained text) :
    WholeStatements text := by
  intro stack s hs
  have hread := h.betweenStatements hs
  rw [State.read_append_feed]
  exact hread.read_feed

end Scriptwright
