import Scriptwright.Proofs.CharacterPlaces
import Scriptwright.Proofs.EscapeRoundTrip
import Scriptwright.Proofs.SealedContent

/-!
# A written literal in any place of the code

A scan goes on from a state without a look at what was emitted and recorded before,
but for one question: whether a slash would begin a regular expression.  Two states
are `Level` if they stand at the same place on the same line and have the same
answer to that.  From level states **the same text adds the same code and the same
literals** (`Level.readBefore`), which are put behind those that are there
(`State.followedBy`).

A string that is written into the code leaves a state that does not depend on what
the string says, up to levelness: the last character of the code is a quote, and
that closes an operand like any other (`slashContext_delimiter`).  So **wherever the
scanner is in code, an escaped or a sealed text between quotes is one literal, and
what comes behind is scanned as behind an empty one** (`readsAs_written`).
-/

namespace Scriptwright

namespace Scan

/-! ## Scans that go on alike -/

/-- A state behind another: at its own place, its code and its literals behind those of the
other. -/
def State.followedBy (s more : State) : State :=
  ⟨more.region, more.line, more.codeReversed ++ s.codeReversed, more.found ++ s.found⟩

/-- What was found is carried on in any order of grouping. -/
theorem State.followedBy_assoc (s more most : State) :
    (s.followedBy more).followedBy most = s.followedBy (more.followedBy most) := by
  simp [followedBy]

/-- What was found before can be told off. -/
theorem State.followedBy_injective (s : State) : Function.Injective s.followedBy := by
  intro more more' h
  obtain ⟨hregion, hline, hcode, hfound⟩ := State.mk.inj h
  cases more
  cases more'
  rw [State.mk.injEq]
  exact ⟨hregion, hline, List.append_cancel_right hcode, List.append_cancel_right hfound⟩

/-- The literals of both are those of the first and, behind them, those of the second. -/
theorem State.literals_followedBy (s more : State) :
    (s.followedBy more).literals = s.found.reverse ++ more.literals := by
  obtain ⟨region, line, code, found⟩ := more
  cases region <;> simp [followedBy, literals]

/-- Two states at the same place of the same line, with code that means the same to a slash. -/
structure Level (s t : State) : Prop where
  region : s.region = t.region
  line : s.line = t.line
  context : slashContext s.codeReversed = slashContext t.codeReversed

/-- Two runs, from `s` to `s'` and from `t` to `t'`, that added the same. -/
def AddSame (s t s' t' : State) : Prop := ∃ more, s' = s.followedBy more ∧ t' = t.followedBy more

variable {s t : State}

/-- Every state is level with itself. -/
theorem Level.refl (s : State) : Level s s := ⟨rfl, rfl, rfl⟩

/-- States that are level stay so if the same is added to both. -/
theorem Level.of_addSame {s' t' : State} (h : Level s t) (h' : AddSame s t s' t') :
    Level s' t' := by
  obtain ⟨more, rfl, rfl⟩ := h'
  exact ⟨rfl, rfl, slashContext_append_congr h.context more.codeReversed⟩

/-- What is added may be added in two parts. -/
theorem AddSame.trans {s' t' s'' t'' : State} (h : AddSame s t s' t')
    (h' : AddSame s' t' s'' t'') : AddSame s t s'' t'' := by
  obtain ⟨more, rfl, rfl⟩ := h
  obtain ⟨most, rfl, rfl⟩ := h'
  exact ⟨more.followedBy most, s.followedBy_assoc more most, t.followedBy_assoc more most⟩

/-- A character that both emit is added to both. -/
theorem Level.emit (h : Level s t) (c : Char) (r : Region) :
    AddSame s t (s.emit c r) (t.emit c r) := by
  refine ⟨⟨r, (t.emit c r).line, [c], []⟩, ?_, rfl⟩
  rw [State.emit, State.emit, h.line]
  rfl

/-- A literal that both record is added to both, with the character that ends it. -/
theorem Level.record (h : Level s t) (l : ScriptLiteral) (c : Char) (r : Region) :
    AddSame s t ((s.record l).emit c r) ((t.record l).emit c r) := by
  refine ⟨⟨r, (t.emit c r).line, [c], [l]⟩, ?_, rfl⟩
  rw [State.record, State.emit, State.emit, h.line]
  rfl

/-- **One character.** -/
theorem Level.step (h : Level s t) (c : Char) (next : Option Char) :
    AddSame s t (s.step c next) (t.step c next) := by
  have hslash : regexAllowed s.codeReversed = regexAllowed t.codeReversed := by
    rw [regexAllowed_eq, regexAllowed_eq, h.context]
  rw [State.step, State.step, h.region]
  cases t.region with
  | code =>
      simp only [State.readCode, h.line, hslash]
      split_ifs <;> exact h.emit _ _
  | literal l =>
      simp only [State.readLiteral]
      split_ifs
      · exact h.record _ _ _
      · exact h.emit _ _
      · exact h.emit _ _
      · exact h.record _ _ _
      · exact h.record _ _ _
      · exact h.emit _ _
  | lineComment =>
      dsimp only
      split_ifs <;> exact h.emit _ _
  | blockOpening => exact h.emit _ _
  | blockComment =>
      dsimp only
      split_ifs <;> exact h.emit _ _
  | blockClosing => exact h.emit _ _

/-- **A whole text.** -/
theorem Level.readBefore (h : Level s t) (next : Option Char) (u : Text) :
    AddSame s t (s.readBefore next u) (t.readBefore next u) := by
  induction u generalizing s t with
  | nil => exact ⟨⟨t.region, t.line, [], []⟩, by simp [State.followedBy, State.readBefore,
      ← h.region, ← h.line], rfl⟩
  | cons c u ih =>
      have hstep := h.step c (u.head?.or next)
      exact hstep.trans (ih (h.of_addSame hstep))

/-- What one run adds, a run from a level state adds as well. -/
theorem Level.readBefore_eq (h : Level s t) {next : Option Char} {u : Text} {more : State}
    (ht : t.readBefore next u = t.followedBy more) :
    s.readBefore next u = s.followedBy more := by
  obtain ⟨same, hs, ht'⟩ := h.readBefore next u
  rw [hs, t.followedBy_injective (ht'.symm.trans ht)]

/-! ## Behind a string -/

/-- A quote closes an operand: a slash behind it divides. -/
theorem slashContext_delimiter {kind : LiteralKind} (hquoted : kind.isQuoted = true) (code : Text) :
    slashContext (kind.delimiter :: code) = .mark false := by
  have hmarks : ∀ c ∈ ['"', '\''], isBlank c = false ∧ ¬ (c = '+' ∨ c = '-') ∧
      isNameChar c = false ∧ regexPreceders.contains c = false := by decide
  have hmark : kind.delimiter ∈ ['"', '\''] := by
    rcases delimiter_of_isQuoted hquoted with hd | hd <;> rw [hd] <;> decide
  obtain ⟨hblank, hsign, hname, hpreceder⟩ := hmarks _ hmark
  rw [slashContext, SlashContext.push, hblank, if_neg hsign, hname, hpreceder]
  rfl

/-- Behind a string on a line, with no code but its last quote. -/
def State.behindString (line : Nat) : State := ⟨.code, line, ['"'], []⟩

/-- Behind whatever string, the scan goes on as there. -/
theorem level_behindString {kind : LiteralKind} (hquoted : kind.isQuoted = true) (line : Nat)
    (code : Text) (found : List ScriptLiteral) :
    Level ⟨.code, line, kind.delimiter :: code, found⟩ (.behindString line) :=
  ⟨rfl, rfl, slashContext_delimiter hquoted code⟩

/-- After a text the scanner is on the line on which the text ends. -/
theorem line_scan (t : Text) : (scan t).line = Text.lineAfter t := (Tracks.readBefore t none).line

/-- Where the scanner is in code, a held text between quotes is one literal. -/
theorem scan_string {kind : LiteralKind} (hquoted : kind.isQuoted = true) {content : Text}
    (hheld : Literal.Held kind.delimiter content) (hfeed : '\n' ∉ content) {pre : Text}
    (hpre : (scan pre).isOutside = true) (post : Text) :
    scan (pre ++ (kind.delimiter :: content ++ [kind.delimiter]) ++ post) =
      (State.mk .code (scan pre).line
        (kind.delimiter :: List.replicate content.length ' ' ++
          kind.delimiter :: (scan pre).codeReversed)
        (⟨kind, (scan pre).line, content, false, true⟩ :: (scan pre).found)).readBefore none
          post := by
  have hregion : (scan pre).region = .code := of_decide_eq_true hpre
  have hordinary : Ordinary (some kind.delimiter) := by
    rcases delimiter_of_isQuoted hquoted with hd | hd <;> rw [hd, Ordinary] <;> decide
  have hbefore : State.start.readBefore (some kind.delimiter) pre = scan pre :=
    State.readBefore_ordinary _ _ hordinary
  rw [scan, State.read, List.append_assoc, State.readBefore_append, List.cons_append,
    List.cons_append, List.head?_cons, Option.some_or, hbefore, ← List.cons_append,
    ← List.cons_append, State.readBefore_append,
    State.readBefore_string hquoted hheld hfeed _ hregion]

end Scan

/-- A text written between two others is read as one literal, with quotes and blanks in the code;
behind it come the literals `later` and the code `behind`. -/
structure ReadsAs (pre written post : Text) (kind : LiteralKind) (content : Text)
    (later : List ScriptLiteral) (behind : Text) : Prop where
  literals : (strip (pre ++ written ++ post)).literals =
    (strip pre).literals ++ ⟨kind, Text.lineAfter pre, content, false, true⟩ :: later
  code : (strip (pre ++ written ++ post)).code =
    (strip pre).code ++ kind.delimiter ::
      (List.replicate content.length ' ' ++ kind.delimiter :: behind)

open Literal (escape quote enclose sealContent Held)

/-- **In every place of the code what is written as a literal is that literal.**  Where the scanner
is in code, a text that is escaped between quotes of either kind, or sealed between double quotes,
is one literal with all of it as its content; the literals and the code behind it are the same as
behind an empty literal, whatever the text says. -/
theorem readsAs_written {pre : Text} (hpre : (scan pre).isOutside = true) (s post : Text) :
    ∃ later behind,
      ReadsAs pre ['"', '"'] post .double [] later behind ∧
      ReadsAs pre ['\'', '\''] post .single [] later behind ∧
      ReadsAs pre (quote s) post .double (escape s) later behind ∧
      ReadsAs pre (enclose '\'' s) post .single (escape s) later behind ∧
      ReadsAs pre ('"' :: sealContent s ++ ['"']) post .double (sealContent s) later behind := by
  have hregion : (scan pre).region = .code := of_decide_eq_true hpre
  -- What the text behind a string adds is the same for all of them.
  obtain ⟨more, -, hmore⟩ :=
    (Scan.Level.refl (.behindString (scan pre).line)).readBefore none post
  have hreads (kind : LiteralKind) (hquoted : kind.isQuoted = true) (content : Text)
      (hheld : Held kind.delimiter content) (hfeed : '\n' ∉ content) :
      ReadsAs pre (kind.delimiter :: content ++ [kind.delimiter]) post kind content more.literals
        more.codeReversed.reverse := by
    have hscan := (Scan.scan_string hquoted hheld hfeed hpre post).trans
      ((Scan.level_behindString hquoted _ _ _).readBefore_eq hmore)
    have hbefore : (strip pre).literals = (scan pre).found.reverse := by
      rw [strip, Scan.State.literals, hregion]
    refine ⟨?_, ?_⟩
    · rw [hbefore, strip, hscan, Scan.State.literals_followedBy, Scan.line_scan]
      simp
    · rw [strip, hscan, strip, Scan.State.followedBy]
      simp
  refine ⟨more.literals, more.codeReversed.reverse, ?_, ?_, ?_, ?_, ?_⟩
  · exact hreads .double rfl [] .nil List.not_mem_nil
  · exact hreads .single rfl [] .nil List.not_mem_nil
  · exact hreads .double rfl _ (Literal.held_escape (.inl rfl) s) (Literal.no_feed_escape s)
  · exact hreads .single rfl _ (Literal.held_escape (.inr rfl) s) (Literal.no_feed_escape s)
  · exact hreads .double rfl _ (Literal.sealed_sealContent s).held
      (Literal.sealed_sealContent s).no_feed

/-- A string with both quotes, a line feed and the opening of a comment in it, between a division
and a regular expression. -/
theorem readsAs_written_slashes :
    let pre : Text := "var a = i++ / 2 + f(".toList
    let s : Text := "\"'/*\n".toList
    let post : Text := " / 2, /'/);".toList
    (scan pre).isOutside = true ∧ ∃ later behind,
      ReadsAs pre ['"', '"'] post .double [] later behind ∧
      ReadsAs pre ['\'', '\''] post .single [] later behind ∧
      ReadsAs pre (quote s) post .double (escape s) later behind ∧
      ReadsAs pre (enclose '\'' s) post .single (escape s) later behind ∧
      ReadsAs pre ('"' :: sealContent s ++ ['"']) post .double (sealContent s) later behind := by
  intro pre s post
  have hpre : (scan pre).isOutside = true := by decide +kernel
  exact ⟨hpre, readsAs_written hpre s post⟩

end Scriptwright
