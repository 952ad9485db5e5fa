import Scriptwright.Proofs.BracketBalance
import Scriptwright.Proofs.ScanState
import Scriptwright.Script.Layout

/-!
# Moving lines in

`Layout.indent` works line by line and knows nothing of literals and comments.
It adds two blanks before a line, drops a carriage return before a line feed and
empties a blank line.  The scanner hardly notices: at the beginning of a line it
stands in code, in a block comment, or in a string or template with no escape
pending (`AtLineStart`), and blanks read there change neither the kind of place
nor what a slash would mean (`AtLineStart.blank`).

Only one change can matter.  A carriage return before a line feed may be the
character that a backslash takes, and a bare line feed in a string cuts the
string off; without the return the string would go on.  A text whose literals
all end has no such line, so **indentation keeps the scan of a text whose
literals all end** (`aligned_indent`): the same kind of place at the end, the
same brackets in the code, the same ends of literals.
-/

namespace Scriptwright

namespace Text

/-- A line without the carriage return that belongs to its end. -/
def dropReturn (line : Text) : Text := if line.getLast? = some '\r' then line.dropLast else line

/-- The carriage return of a line is dropped. -/
theorem dropReturn_append_return (line : Text) : dropReturn (line ++ ['\r']) = line := by
  simp [dropReturn]

/-- A text without a line feed is one line. -/
theorem lines_of_no_feed {line : Text} (hne : line ≠ []) (h : '\n' ∉ line) :
    lines line = [line] := by
  induction line with
  | nil => exact absurd rfl hne
  | cons c rest ih =>
      have hc : c ≠ '\n' := fun heq => h (heq ▸ List.mem_cons_self)
      have hrest : '\n' ∉ rest := fun hmem => h (List.mem_cons_of_mem _ hmem)
      have hpair : ∀ more, c = '\r' → rest = '\n' :: more → False :=
        fun more _ heq => hrest (heq ▸ List.mem_cons_self)
      rw [lines.eq_4 c rest hc hpair]
      cases rest with
      | nil => rfl
      | cons d rest => rw [ih (List.cons_ne_nil _ _) hrest]

/-- The first line and the others. -/
theorem lines_append_feed {line : Text} (h : '\n' ∉ line) (rest : Text) :
    lines (line ++ '\n' :: rest) = dropReturn line :: lines rest := by
  induction line with
  | nil => rfl
  | cons c line ih =>
      have hc : c ≠ '\n' := fun heq => h (heq ▸ List.mem_cons_self)
      have hline : '\n' ∉ line := fun hmem => h (List.mem_cons_of_mem _ hmem)
      by_cases hreturn : c = '\r' ∧ line = []
      · obtain ⟨rfl, rfl⟩ := hreturn
        rfl
      · have hpair : ∀ more, c = '\r' → line ++ '\n' :: rest = '\n' :: more → False := by
          intro more hc' heq
          cases line with
          | nil => exact hreturn ⟨hc', rfl⟩
          | cons d line => exact hline ((List.cons.inj heq).1 ▸ List.mem_cons_self)
        have hdrop : dropReturn (c :: line) = c :: dropReturn line := by
          cases line with
          | nil =>
              have hc' : c ≠ '\r' := fun heq => hreturn ⟨heq, rfl⟩
              simp [dropReturn, hc']
          | cons d line =>
              simp only [dropReturn, List.getLast?_cons_cons]
              split <;> rfl
        rw [List.cons_append, lines.eq_4 _ _ hc hpair, ih hline, hdrop]

/-- A text has no line feed, or a first line and a rest. -/
theorem eq_line_or_append (t : Text) :
    '\n' ∉ t ∨ ∃ line rest, t = line ++ '\n' :: rest ∧ '\n' ∉ line := by
  by_cases h : '\n' ∈ t
  · exact .inr (List.eq_append_cons_of_mem h)
  · exact .inl h

end Text

namespace Layout

/-- A text of one line is moved in as that line. -/
theorem indent_of_no_feed {line : Text} (h : '\n' ∉ line) : indent line = indentLine line := by
  cases line with
  | nil => rfl
  | cons c line =>
      rw [indent, Text.lines_of_no_feed (List.cons_ne_nil _ _) h]
      rfl

/-- The first line of several is moved in by itself, without its carriage return. -/
theorem indent_append_feed {line rest : Text} (h : '\n' ∉ line) (hrest : rest ≠ []) :
    indent (line ++ '\n' :: rest) = indentLine (Text.dropReturn line) ++ '\n' :: indent rest := by
  have hlines : Text.lines rest ≠ [] := by
    rcases Text.eq_line_or_append rest with hno | ⟨first, more, rfl, hfirst⟩
    · rw [Text.lines_of_no_feed hrest hno]; exact List.cons_ne_nil _ _
    · rw [Text.lines_append_feed hfirst]; exact List.cons_ne_nil _ _
  rw [indent, indent, Text.lines_append_feed h, List.map_cons]
  cases hmap : (Text.lines rest).map indentLine with
  | nil => exact absurd (List.map_eq_nil_iff.1 hmap) hlines
  | cons first more => simp [Text.join]

/-- A line feed at the end begins no line that would be moved in. -/
theorem indent_feed {line : Text} (h : '\n' ∉ line) :
    indent (line ++ ['\n']) = indentLine (Text.dropReturn line) := by
  rw [indent, Text.lines_append_feed h]
  rfl

end Layout

namespace Scan

open Delimiters (isBracket)

/-- No blank is a bracket. -/
theorem isBracket_of_isBlank {c : Char} (h : isBlank c = true) : isBracket c = false := by
  have hcodes : ∀ n ∈ blankCodes, isBracket (Char.ofNat n) = false := by decide +kernel
  exact of_isBlank (P := fun c => isBracket c = false) hcodes h

/-- Two scans that agree in all but blanks and the texts of literals: similar states with the same
brackets in the code and the same ends of literals. -/
structure Aligned (s t : State) : Prop extends Similar s t where
  brackets : s.codeReversed.filter isBracket = t.codeReversed.filter isBracket
  endings : s.found.map ending = t.found.map ending

/-- Every state is aligned with itself. -/
theorem Aligned.refl (s : State) : Aligned s s := ⟨.refl s, rfl, rfl⟩

/-- Either state may be named first. -/
theorem Aligned.symm {s t : State} (h : Aligned s t) : Aligned t s :=
  ⟨h.toSimilar.symm, h.brackets.symm, h.endings.symm⟩

/-- States that are aligned with the same state are aligned. -/
theorem Aligned.trans {s t u : State} (h : Aligned s t) (h' : Aligned t u) : Aligned s u :=
  ⟨⟨h.shape.trans h'.shape, h.context.trans h'.context⟩, h.brackets.trans h'.brackets,
    h.endings.trans h'.endings⟩

/-- Aligned scans stay aligned over the same text. -/
theorem Aligned.readBefore {s t : State} (h : Aligned s t) (next : Option Char) (u : Text) :
    Aligned (s.readBefore next u) (t.readBefore next u) := by
  have hrun := h.toSimilar.readBefore next u
  obtain ⟨out, hs, ht⟩ := hrun.emitted
  obtain ⟨new, new', hn, hn', hends⟩ := hrun.recorded
  refine ⟨hrun.similar h.context, ?_, ?_⟩
  · rw [hs, ht, List.filter_append, List.filter_append, h.brackets]
  · rw [hn, hn', List.map_append, List.map_append, hends, h.endings]

/-- The places at which a line can begin. -/
structure AtLineStart (s : State) : Prop where
  settled : (slashContext s.codeReversed).settle = slashContext s.codeReversed
  place : s.region.shape = .code ∨ s.region.shape = .blockComment ∨
    ∃ kind inClass, kind ≠ LiteralKind.regex ∧ s.region.shape = .literal kind false inClass

/-- Both states are at the beginning of a line, or neither is. -/
theorem Aligned.atLineStart {s t : State} (h : Aligned s t) (hs : AtLineStart s) : AtLineStart t :=
  ⟨h.context ▸ hs.settled, h.shape ▸ hs.place⟩

/-- Emitting a blank where a line begins, without leaving the place. -/
theorem AtLineStart.emit {s : State} (h : AtLineStart s) {c : Char} {r : Region}
    (hblank : isBlank c = true) (hshape : r.shape = s.region.shape) :
    Aligned s (s.emit c r) where
  shape := hshape.symm
  context := by rw [State.emit, slashContext, SlashContext.push_blank hblank, h.settled]
  brackets := by simp [State.emit, isBracket_of_isBlank hblank]
  endings := rfl

/-- What a blank other than a line feed is not. -/
theorem blank_ne {c : Char} (h : isBlank c = true) :
    c ≠ '"' ∧ c ≠ '\'' ∧ c ≠ '\x60' ∧ c ≠ '/' ∧ c ≠ '*' ∧ c ≠ '\\' := by
  refine ⟨?_, ?_, ?_, ?_, ?_, ?_⟩ <;> (rintro rfl; exact absurd h (by decide))

/-- No blank begins a literal. -/
theorem delimiter_ne_of_isBlank {c : Char} (h : isBlank c = true) (kind : LiteralKind) :
    c ≠ kind.delimiter := by
  obtain ⟨hdouble, hsingle, hback, hslash, -, -⟩ := blank_ne h
  cases kind <;> assumption

/-- What stands for a character of a literal in the code is a blank. -/
theorem isBlank_blankOf {c : Char} : isBlank (blankOf c) = true := by
  unfold blankOf; split <;> decide

/-- **Blanks at the beginning of a line.**  A blank other than a line feed changes nothing that
matters. -/
theorem AtLineStart.blank {s : State} (h : AtLineStart s) {c : Char} (hblank : isBlank c = true)
    (hfeed : c ≠ '\n') (next : Option Char) : Aligned s (s.step c next) := by
  obtain ⟨hdouble, hsingle, hback, hslash, hstar, hescape⟩ := blank_ne hblank
  rw [State.step]
  rcases h.place with hplace | hplace | ⟨kind, inClass, hkind, hplace⟩
  · have hregion := Region.eq_code hplace
    rw [hregion]
    simp only [State.readCode, hdouble, hsingle, hback, hslash, if_false]
    exact h.emit hblank (by rw [hregion])
  · have hregion := Region.eq_blockComment hplace
    rw [hregion]
    simp only [hstar, false_and, if_false]
    exact h.emit isBlank_blankOf (by rw [hregion])
  · obtain ⟨line, reversed, hregion⟩ := Region.eq_literal hplace
    have hdelimiter := delimiter_ne_of_isBlank hblank kind
    rw [hregion]
    simp only [State.readLiteral, State.readContent, hfeed, hescape, hdelimiter, hkind, if_false,
      false_and, ne_eq, not_false_eq_true, or_true, if_true, Bool.false_eq_true]
    exact h.emit isBlank_blankOf (by rw [hregion]; rfl)

/-- A run of blanks there changes nothing that matters either. -/
theorem AtLineStart.blanks {s : State} (h : AtLineStart s) {u : Text} (hblank : ∀ c ∈ u, isBlank c)
    (hfeed : '\n' ∉ u) (next : Option Char) : Aligned s (s.readBefore next u) := by
  induction u generalizing s with
  | nil => exact .refl s
  | cons c u ih =>
      have hc : c ≠ '\n' := fun heq => hfeed (heq ▸ List.mem_cons_self)
      have hstep := h.blank (hblank c List.mem_cons_self) hc (u.head?.or next)
      exact hstep.trans (ih (hstep.atLineStart h) (fun d hd => hblank d (List.mem_cons_of_mem _ hd))
        fun hmem => hfeed (List.mem_cons_of_mem _ hmem))

/-- After a line feed a line begins. -/
theorem atLineStart_feed (s : State) (next : Option Char) : AtLineStart (s.step '\n' next) := by
  have hsettled (s : State) (r : Region) :
      (slashContext (s.emit '\n' r).codeReversed).settle =
        slashContext (s.emit '\n' r).codeReversed := by
    rw [State.emit, slashContext, SlashContext.push_blank (by decide), SlashContext.settle_settle]
  have hcode (s : State) : AtLineStart (s.emit '\n' .code) := ⟨hsettled _ _, .inl rfl⟩
  have hcomment (s : State) : AtLineStart (s.emit '\n' .blockComment) :=
    ⟨hsettled _ _, .inr (.inl rfl)⟩
  rw [State.step]
  cases hregion : s.region with
  | code => exact hcode s
  | lineComment => exact hcode s
  | blockOpening => exact hcomment s
  | blockComment => exact hcomment s
  | blockClosing => exact hcode s
  | literal l =>
      simp only [State.readLiteral]
      by_cases hregex : l.kind = .regex
      · simp only [hregex, and_self, if_true]
        exact hcode _
      · have hcontent : AtLineStart (s.readContent l '\n' false) :=
          ⟨hsettled _ _, .inr (.inr ⟨l.kind, _, hregex, rfl⟩)⟩
        have hdelimiter : '\n' ≠ l.kind.delimiter := delimiter_ne_of_isBlank (by decide) _
        simp only [hregex, hdelimiter, and_false, false_and, if_false]
        split_ifs with hescaped hslash hquoted
        · exact hcontent
        · exact absurd hslash (by decide)
        · exact hcode _
        · exact hcontent

/-- Two blanks in a row, the second a line feed, do to the context what the line feed does. -/
theorem aligned_blank_feed (s : State) {c : Char} (hblank : isBlank c = true) (r : Region)
    {r₁ r₂ : Region} (h : r₁.shape = r₂.shape) :
    Aligned ((s.emit c r).emit '\n' r₁) (s.emit '\n' r₂) where
  shape := h
  context := by
    have hfeed : isBlank '\n' = true := by decide
    simp only [State.emit, slashContext, SlashContext.push_blank hblank,
      SlashContext.push_blank hfeed, SlashContext.settle_settle]
  brackets := by
    have hfeed : isBracket '\n' = false := by decide
    simp [State.emit, isBracket_of_isBlank hblank, hfeed]
  endings := rfl

/-- A carriage return in a literal is content. -/
theorem State.readLiteral_return (s : State) (l : OpenLiteral) :
    s.readLiteral l '\r' = s.readContent l '\r' false := by
  have hdelimiter : '\r' ≠ l.kind.delimiter := delimiter_ne_of_isBlank (by decide) _
  have hslash : '\r' ≠ '\\' := by decide
  have hfeed : '\r' ≠ '\n' := by decide
  simp only [State.readLiteral, hdelimiter, hslash, hfeed, false_and, if_false, ite_self]

/-- A line feed in a template is content. -/
theorem State.readLiteral_template_feed (s : State) {l : OpenLiteral} (h : l.kind = .template) :
    s.readLiteral l '\n' = s.readContent l '\n' false := by
  have hdelimiter : '\n' ≠ LiteralKind.template.delimiter := by decide
  have hslash : '\n' ≠ '\\' := by decide
  have hquoted : LiteralKind.template.isQuoted = false := rfl
  simp only [State.readLiteral, h, hdelimiter, hslash, hquoted, reduceCtorEq, and_false, false_and,
    if_false, ite_self, Bool.false_eq_true]

/-- A line feed with no escape pending cuts every other literal off. -/
theorem State.readLiteral_cut (s : State) {l : OpenLiteral} (h : l.kind ≠ .template)
    (hescaped : l.escaped = false) :
    ∃ cut ∈ (s.readLiteral l '\n').found, cut.terminated = false := by
  have hdelimiter : '\n' ≠ l.kind.delimiter := delimiter_ne_of_isBlank (by decide) _
  have hslash : '\n' ≠ '\\' := by decide
  simp only [State.readLiteral, hdelimiter, hslash, hescaped, false_and, if_false, true_and,
    Bool.false_eq_true]
  cases hkind : l.kind with
  | template => exact absurd hkind h
  | regex => exact ⟨l.ended false false, by simp [State.emit, State.record], rfl⟩
  | single => exact ⟨l.ended true false, by simp [State.emit, State.record, LiteralKind.isQuoted], rfl⟩
  | double => exact ⟨l.ended true false, by simp [State.emit, State.record, LiteralKind.isQuoted], rfl⟩

/-- A carriage return before a line feed in a literal that goes on behind them. -/
theorem aligned_return_literal {s : State} {l : OpenLiteral} (hregion : s.region = .literal l)
    (next : Option Char)
    (hends : ∀ l ∈ ((s.step '\r' (some '\n')).step '\n' next).found, l.terminated = true) :
    Aligned ((s.step '\r' (some '\n')).step '\n' next) (s.step '\n' next) := by
  have hspace : isBlank ' ' = true := by decide
  have hreturn : s.step '\r' (some '\n') = s.readContent l '\r' false := by
    rw [State.step, hregion]
    exact s.readLiteral_return l
  have hfeed : s.step '\n' next = s.readLiteral l '\n' := by rw [State.step, hregion]
  -- The literal that is open after the return has no escape pending any more.
  obtain ⟨l', hl', hkind, hescaped, hclass⟩ :
      ∃ l', (s.readContent l '\r' false).region = .literal l' ∧ l'.kind = l.kind ∧
        l'.escaped = false ∧ (l.kind ≠ .regex → l'.inClass = l.inClass) :=
    ⟨_, rfl, rfl, rfl, fun h => by simp [h]⟩
  have hboth : (s.readContent l '\r' false).step '\n' next =
      (s.readContent l '\r' false).readLiteral l' '\n' := by rw [State.step, hl']
  rw [hreturn, hboth] at hends ⊢
  rw [hfeed]
  by_cases htemplate : l.kind = .template
  · have hplain : l.kind ≠ .regex := by rw [htemplate]; decide
    rw [State.readLiteral_template_feed _ htemplate,
      State.readLiteral_template_feed _ (hkind.trans htemplate)]
    refine aligned_blank_feed s hspace _ ?_
    simp [Region.shape, hkind, hplain, hclass hplain]
  · obtain ⟨cut, hcut, hopen⟩ :=
      State.readLiteral_cut (s.readContent l '\r' false) (hkind ▸ htemplate) hescaped
    rw [hends cut hcut] at hopen
    cases hopen

/-- **A carriage return before a line feed.**  Unless a literal is cut off there, leaving it out
changes nothing that matters. -/
theorem aligned_return {s : State} (next : Option Char)
    (hends : ∀ l ∈ ((s.step '\r' (some '\n')).step '\n' next).found, l.terminated = true) :
    Aligned ((s.step '\r' (some '\n')).step '\n' next) (s.step '\n' next) := by
  have outside {c : Char} {r₁ r₂ : Region} (hc : isBlank c = true)
      (hreturn : s.step '\r' (some '\n') = s.emit c r₁)
      (hboth : (s.emit c r₁).step '\n' next = (s.emit c r₁).emit '\n' r₂)
      (hfeed : s.step '\n' next = s.emit '\n' r₂) :
      Aligned ((s.step '\r' (some '\n')).step '\n' next) (s.step '\n' next) := by
    rw [hreturn, hboth, hfeed]
    exact aligned_blank_feed s hc r₁ rfl
  have hspace : isBlank ' ' = true := by decide
  cases hregion : s.region with
  | code =>
      have hreturn : s.step '\r' (some '\n') = s.emit '\r' .code := by
        simp [State.step, hregion, State.readCode]
      exact outside (by decide) hreturn rfl (by simp [State.step, hregion, State.readCode])
  | lineComment =>
      have hreturn : s.step '\r' (some '\n') = s.emit ' ' .lineComment := by
        simp [State.step, hregion]
      exact outside hspace hreturn rfl (by simp [State.step, hregion])
  | blockOpening =>
      have hreturn : s.step '\r' (some '\n') = s.emit ' ' .blockComment := by
        simp [State.step, hregion, blankOf]
      exact outside hspace hreturn rfl (by simp [State.step, hregion, blankOf])
  | blockComment =>
      have hreturn : s.step '\r' (some '\n') = s.emit ' ' .blockComment := by
        simp [State.step, hregion, blankOf]
      exact outside hspace hreturn rfl (by simp [State.step, hregion, blankOf])
  | blockClosing =>
      have hreturn : s.step '\r' (some '\n') = s.emit ' ' .code := by
        simp [State.step, hregion, blankOf]
      exact outside hspace hreturn rfl (by simp [State.step, hregion, blankOf])
  | literal l => exact aligned_return_literal hregion next hends

/-- A literal other than a string does not mind an empty line, and a string is cut off by one. -/
theorem AtLineStart.feed {s : State} (h : AtLineStart s) (next : Option Char)
    (hends : ∀ l ∈ (s.step '\n' next).found, l.terminated = true) :
    Aligned s (s.step '\n' next) := by
  have hfeed : isBlank '\n' = true := by decide
  rw [State.step] at hends ⊢
  rcases h.place with hplace | hplace | ⟨kind, inClass, hkind, hplace⟩
  · have hregion := Region.eq_code hplace
    rw [hregion]
    exact h.emit hfeed (by rw [hregion])
  · have hregion := Region.eq_blockComment hplace
    rw [hregion]
    exact h.emit hfeed (by rw [hregion])
  · obtain ⟨line, reversed, hregion⟩ := Region.eq_literal hplace
    rw [hregion] at hends ⊢
    by_cases htemplate : kind = .template
    · dsimp only
      rw [State.readLiteral_template_feed _ htemplate]
      refine h.emit hfeed ?_
      simp [Region.shape, hregion, hkind]
    · obtain ⟨cut, hcut, hopen⟩ :=
        State.readLiteral_cut s (l := ⟨kind, line, reversed, false, inClass⟩) htemplate rfl
      rw [hends cut hcut] at hopen
      cases hopen

/-- A text before an ordinary character is read by itself. -/
theorem State.read_append_ordinary (s : State) (u : Text) {c : Char} (h : Ordinary (some c))
    (rest : Text) : s.read (u ++ c :: rest) = (s.read u).read (c :: rest) := by
  rw [State.read, State.readBefore_append]
  show (s.readBefore (some c) u).readBefore none (c :: rest) = _
  rw [State.readBefore_ordinary s u h]
  rfl

/-- Reading a text and a line feed behind it. -/
theorem State.read_append_feed (s : State) (u : Text) :
    s.read (u ++ ['\n']) = (s.read u).step '\n' none :=
  s.read_append_ordinary u ⟨by decide, by decide⟩ []

/-- Reading a text with a carriage return and a line feed behind it. -/
theorem State.read_append_return_feed (s : State) (u : Text) :
    s.read (u ++ ['\r'] ++ ['\n']) = ((s.read u).step '\r' (some '\n')).step '\n' none := by
  rw [List.append_assoc]
  exact s.read_append_ordinary u ⟨by decide, by decide⟩ ['\n']

/-- A line moved in, with its end, is scanned as the line is. -/
theorem AtLineStart.indentLine {s : State} (h : AtLineStart s) {line : Text} (hline : '\n' ∉ line) :
    Aligned (s.read (line ++ ['\n'])) (s.read (Layout.indentLine line ++ ['\n'])) := by
  rw [State.read_append_feed, State.read_append_feed, Layout.indentLine]
  by_cases hblank : Text.allBlank line = true
  · rw [if_pos hblank]
    have hblanks := h.blanks (by simpa [Text.allBlank] using hblank) hline none
    exact (hblanks.symm.readBefore none ['\n'])
  · rw [if_neg hblank]
    have hspace : isBlank ' ' = true := by decide
    have hfirst := h.blank hspace (by decide) (some ' ')
    have hsecond := (hfirst.atLineStart h).blank hspace (by decide) (line.head?.or none)
    exact ((hfirst.trans hsecond).readBefore none line).readBefore none ['\n']

/-- The same of a line whose end may have a carriage return in it, unless a literal is cut off. -/
theorem AtLineStart.indentLine_dropReturn {s : State} (h : AtLineStart s) {line : Text}
    (hline : '\n' ∉ line) (hends : ∀ l ∈ (s.read (line ++ ['\n'])).found, l.terminated = true) :
    Aligned (s.read (line ++ ['\n']))
      (s.read (Layout.indentLine (Text.dropReturn line) ++ ['\n'])) := by
  by_cases hreturn : line.getLast? = some '\r'
  · obtain ⟨front, rfl⟩ := List.getLast?_eq_some_iff.1 hreturn
    have hfront : '\n' ∉ front := fun hmem => hline (List.mem_append_left _ hmem)
    rw [State.read_append_return_feed] at hends ⊢
    rw [Text.dropReturn_append_return]
    have hwithout := aligned_return none hends
    rw [← State.read_append_feed] at hwithout
    exact hwithout.trans (h.indentLine hfront)
  · have hsame : Text.dropReturn line = line := by rw [Text.dropReturn, if_neg hreturn]
    rw [hsame]
    exact h.indentLine hline

/-- Behind a line feed a scan is at the beginning of a line. -/
theorem atLineStart_read (s : State) (u : Text) : AtLineStart (s.read (u ++ ['\n'])) := by
  rw [State.read_append_feed]
  exact atLineStart_feed _ none

/-- **Indentation keeps the scan.**  Where a line begins, a text whose literals all end and the text
moved in, each with a line end, are scanned alike. -/
theorem aligned_indent {s : State} (h : AtLineStart s) (t : Text)
    (hends : ∀ l ∈ (s.read (t ++ ['\n'])).found, l.terminated = true) :
    Aligned (s.read (t ++ ['\n'])) (s.read (Layout.indent t ++ ['\n'])) := by
  induction hlen : t.length using Nat.strongRecOn generalizing s t with
  | ind n ih =>
      rcases Text.eq_line_or_append t with hno | ⟨line, rest, rfl, hline⟩
      · rw [Layout.indent_of_no_feed hno]
        exact h.indentLine hno
      · have hsplit (front u : Text) :
            s.read (front ++ '\n' :: u) = (s.read (front ++ ['\n'])).read u := by
          have hfront : EndsLine (front ++ ['\n']) := .inr ⟨front, rfl⟩
          rw [← State.read_append s hfront]
          simp
        rw [List.append_assoc, List.cons_append, hsplit] at hends ⊢
        have hfirst : ∀ l ∈ (s.read (line ++ ['\n'])).found, l.terminated = true :=
          fun l hl => hends l ((State.found_readBefore _ none _).subset hl)
        have hline' := h.indentLine_dropReturn hline hfirst
        have hstart := atLineStart_read s line
        cases rest with
        | nil =>
            rw [Layout.indent_feed hline]
            exact (hstart.feed none hends).symm.trans hline'
        | cons c rest =>
            have hne : c :: rest ≠ [] := List.cons_ne_nil _ _
            have hshorter : (c :: rest).length < n := by
              rw [← hlen]; simp only [List.length_append, List.length_cons]; omega
            have hrest := ih _ hshorter hstart (c :: rest) hends rfl
            have hmoved := hsplit (Layout.indentLine (Text.dropReturn line))
            rw [Layout.indent_append_feed hline hne, List.append_assoc, List.cons_append,
              List.cons_append, hmoved]
            exact hrest.trans (hline'.readBefore none _)

end Scan

end Scriptwright
