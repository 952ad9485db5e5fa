import Mathlib.Data.List.DropRight
import Scriptwright.CaseFile.Parse
import Scriptwright.Proofs.FindingLines
import Scriptwright.Proofs.Indentation
import Scriptwright.Proofs.PaddedPatterns

/-!
# Case files written out

A case can be written as the lines of a case file (`TestCase.renderedLines`): its
header, what is expected of its validity, its script between dashes, a line for
each expectation, and the equals signs that close it.  A script may hold lines
that look like headers, like expectations or like the closing mark, and the text
of an expectation may hold colons and exclamation marks or be empty, because each
of these is only looked for where it counts.

What cannot be written is what the lines themselves would change
(`TestCase.IsWritable`): texts with blanks around them, a line of a script that is
taken for dashes or whose end would lose a carriage return, and a category with a
colon in it.

A line of a kind is read as what it was written from (`Expectation.ofLine?_line`),
so one case is read back with exactly the lines behind it left over
(`TestCase.parseLines_renderedLines_append`).  By induction on the cases **a file
of writable cases is read as these cases**, in order and each with the line of its
header (`TestCase.parse_renderAll`).
-/

namespace Scriptwright

namespace Text

variable {c : Char} {s t : Text}

/-! ## Blanks around a text -/

/-- Blanks are taken from the front up to a character that is none. -/
theorem trimStart_append_cons (hc : isBlank c = false) (s t : Text) :
    trimStart (s ++ c :: t) = trimStart s ++ c :: t := by
  induction s with
  | nil => simp [trimStart, hc]
  | cons d s ih =>
      cases hd : isBlank d with
      | true => simpa [trimStart, hd] using ih
      | false => simp [trimStart, hd]

/-- They are taken from the end down to such a character. -/
theorem trimEnd_append_cons (hc : isBlank c = false) (s t : Text) :
    trimEnd (s ++ c :: t) = s ++ c :: trimEnd t := by
  have hreverse : (s ++ c :: t).reverse = t.reverse ++ c :: s.reverse := by simp
  have hdrop := trimStart_append_cons hc t.reverse s.reverse
  rw [trimStart] at hdrop
  rw [trimEnd, hreverse, hdrop]
  simp [trimEnd, trimStart]

/-- Blanks in front of a character that is none, and behind it, are left out apart. -/
theorem trim_append_cons (hc : isBlank c = false) (s t : Text) :
    trim (s ++ c :: t) = trimStart s ++ c :: trimEnd t := by
  rw [trim, trimStart_append_cons hc, trimEnd_append_cons hc]

/-- What was trimmed at the front already can be trimmed. -/
theorem trim_trimStart (t : Text) : trim (trimStart t) = trim t := by
  rw [trim, trimStart, trimStart, List.dropWhile_idempotent]
  rfl

/-- What was trimmed at the end already can be, too. -/
theorem trim_trimEnd (t : Text) : trim (trimEnd t) = trim t := by
  by_cases hblank : ∀ c ∈ t, isBlank c = true
  · have hend : trimEnd t = [] := List.rdropWhile_eq_nil_iff.2 hblank
    have hstart : trimStart t = [] := List.dropWhile_eq_nil_iff.2 hblank
    rw [trim, trim, hend, hstart]
    rfl
  · -- at a character that is no blank, the two ends are trimmed apart
    push Not at hblank
    obtain ⟨c, hmem, hc⟩ := hblank
    replace hc := Bool.eq_false_iff.2 hc
    obtain ⟨front, behind, rfl⟩ := List.append_of_mem hmem
    have hagain : trimEnd (trimEnd behind) = trimEnd behind :=
      List.rdropWhile_idempotent isBlank behind
    rw [trimEnd_append_cons hc, trim_append_cons hc, trim_append_cons hc, hagain]

/-- A blank at the front does not matter to trimming. -/
theorem trim_blank_cons (hc : isBlank c = true) (t : Text) : trim (c :: t) = trim t := by
  rw [trim, trimStart, List.dropWhile_cons_of_pos hc]
  rfl

/-- A text as it is found again on a line: without blanks at its ends and without line feeds. -/
def IsTrimmedLine (t : Text) : Prop := trim t = t ∧ '\n' ∉ t

instance : Decidable t.IsTrimmedLine := inferInstanceAs (Decidable (_ ∧ _))

/-- A text as it can stand as a line of a file: no line feed in it, and no carriage return at its
end, which would go with the line feed behind it. -/
def IsLine (t : Text) : Prop := '\n' ∉ t ∧ t.getLast? ≠ some '\r'

/-- The last character of a text without blanks at its ends is no blank. -/
theorem isBlank_of_getLast? (h : trim t = t) (hlast : t.getLast? = some c) : isBlank c = false := by
  obtain ⟨front, rfl⟩ := List.getLast?_eq_some_iff.1 hlast
  have hend : trimEnd (front ++ [c]) = front ++ [c] := by
    calc trimEnd (front ++ [c])
        = trimEnd (trim (front ++ [c])) := by rw [h]
      _ = trim (front ++ [c]) := List.rdropWhile_idempotent isBlank _
      _ = front ++ [c] := h
  have hlast' := List.rdropWhile_eq_self_iff.1 hend (by simp)
  rw [List.getLast_concat] at hlast'
  exact Bool.eq_false_iff.2 hlast'

/-- What is written in front of a blank and a trimmed text. -/
theorem isLine_append_blank (hfront : '\n' ∉ s) (h : t.IsTrimmedLine) : (s ++ ' ' :: t).IsLine := by
  refine ⟨by simp [hfront, h.2], fun hlast => ?_⟩
  rw [List.getLast?_append_of_ne_nil _ (List.cons_ne_nil _ _), List.getLast?_cons] at hlast
  cases hlast' : t.getLast? with
  | none => simp [hlast'] at hlast
  | some c =>
      have hc := isBlank_of_getLast? h.1 hlast'
      rw [hlast'] at hlast
      obtain rfl := Option.some.inj hlast
      exact absurd hc (by decide)

/-! ## Lines of a text -/

/-- What stands between marks holds none. -/
theorem not_mem_of_mem_splitOn {mark : Char} {part : Text} (h : part ∈ t.splitOn mark) :
    mark ∉ part := by
  induction t generalizing part with
  | nil =>
      rw [List.splitOn_nil, List.mem_singleton] at h
      exact h ▸ List.not_mem_nil
  | cons c t ih =>
      rw [List.splitOn_cons_eq_if_modifyHead] at h
      split at h
      next =>
        rcases List.mem_cons.1 h with rfl | h
        · exact List.not_mem_nil
        · exact ih h
      next hc =>
        cases hparts : t.splitOn mark with
        | nil => exact absurd hparts (List.splitOn_ne_nil _ _)
        | cons first more =>
            rw [hparts] at h ih
            rcases List.mem_cons.1 h with rfl | h
            · have hmark : mark ≠ c := fun heq => hc (by simp [heq])
              exact List.not_mem_cons_of_ne_of_not_mem hmark (ih List.mem_cons_self)
            · exact ih (List.mem_cons_of_mem _ h)

/-- Joining is the library's, with the separator first. -/
theorem join_eq_intercalate (separator : Text) (parts : List Text) :
    join separator parts = separator.intercalate parts := by
  induction parts with
  | nil => rfl
  | cons first more ih =>
      cases more with
      | nil => simp [join]
      | cons second more =>
          rw [join.eq_3 _ _ _ (List.cons_ne_nil _ _), ih, List.intercalate_cons_cons]

/-- A text is its lines, with a line feed between each and the next. -/
theorem join_feed_splitOn (t : Text) : join ['\n'] (t.splitOn '\n') = t := by
  rw [join_eq_intercalate, List.intercalate_splitOn]

/-- Each of some lines with a line feed behind it. -/
def unlines (lines : List Text) : Text := lines.flatMap (· ++ ['\n'])

/-- The first line stands in front, with a line feed of its own. -/
theorem unlines_cons (line : Text) (more : List Text) :
    unlines (line :: more) = line ++ '\n' :: unlines more := by
  simp [unlines]

/-- **Lines with a line feed behind each** are split into these lines again. -/
theorem lines_unlines {parts : List Text} (h : ∀ line ∈ parts, line.IsLine) :
    lines (unlines parts) = parts := by
  induction parts with
  | nil => rfl
  | cons line more ih =>
      have hline := h line List.mem_cons_self
      have hmore := ih fun line hmem => h line (List.mem_cons_of_mem _ hmem)
      rw [unlines_cons, lines_append_feed hline.1, dropReturn, if_neg hline.2, hmore]

/-- There is one line feed for each line. -/
theorem feeds_unlines {parts : List Text} (h : ∀ line ∈ parts, line.IsLine) :
    feeds (unlines parts) = parts.length := by
  induction parts with
  | nil => rfl
  | cons line more ih =>
      have hline := (h line List.mem_cons_self).1
      have hmore := ih fun line hmem => h line (List.mem_cons_of_mem _ hmem)
      have hfirst : feeds line = 0 := List.count_eq_zero.2 hline
      have hfeed : feeds ('\n' :: unlines more) = feeds (unlines more) + 1 := List.count_cons_self
      rw [unlines_cons, feeds_append, hfirst, hfeed, hmore, Nat.zero_add, List.length_cons]

end Text

/-- A severity is known by its name. -/
theorem Severity.ofName?_name (s : Severity) : Severity.ofName? s.name = some s := by
  cases s <;> decide

/-- No severity has the name that suggestions go by. -/
theorem Severity.name_ne_suggestion (s : Severity) : s.name ≠ "suggestion".toList := by
  cases s <;> decide

namespace Expectation

/-! ## Lines that state an expectation -/

/-- A line that states the expectation. -/
def line (e : Expectation) : Text :=
  if e.negated then '!' :: describeExpected e.expected else describeExpected e.expected

/-- What can be told from a line: its texts are trimmed, and the category ends at its colon. -/
def IsWritable : Expected → Prop
  | .finding _ category mention =>
      category.IsTrimmedLine ∧ ':' ∉ category ∧ mention.IsTrimmedLine
  | .suggestion mention => mention.IsTrimmedLine

instance : DecidablePred IsWritable := fun
  | .finding .. => inferInstanceAs (Decidable (_ ∧ _ ∧ _))
  | .suggestion _ => inferInstanceAs (Decidable (_ ∧ _))

/-- The kind of what is expected, which stands in front of the first colon. -/
def kind : Expected → Text
  | .finding severity _ _ => severity.name
  | .suggestion _ => "suggestion".toList

/-- A finding goes by its severity. -/
theorem kind_finding (severity : Severity) (category mention : Text) :
    kind (.finding severity category mention) = severity.name := rfl

/-- A suggestion goes by a word of its own. -/
theorem kind_suggestion (mention : Text) : kind (.suggestion mention) = "suggestion".toList := rfl

/-- What is said of it behind the kind. -/
def details : Expected → Text
  | .finding _ category mention => category ++ ':' :: ' ' :: mention
  | .suggestion mention => mention

/-- What is expected is described by its kind and, behind a colon, the details. -/
theorem describeExpected_eq (e : Expected) :
    describeExpected e = kind e ++ ':' :: ' ' :: details e := by
  have hcolon : ": ".toList = [':', ' '] := by decide
  have hsuggestion : "suggestion: ".toList = "suggestion".toList ++ ": ".toList := by decide
  cases e with
  | finding severity category mention =>
      change severity.name ++ ": ".toList ++ category ++ ": ".toList ++ mention =
        severity.name ++ ':' :: ' ' :: (category ++ ':' :: ' ' :: mention)
      rw [hcolon]
      simp only [List.append_assoc, List.cons_append, List.nil_append]
  | suggestion mention =>
      change "suggestion: ".toList ++ mention = "suggestion".toList ++ ':' :: ' ' :: mention
      rw [hsuggestion, hcolon]
      simp only [List.append_assoc, List.cons_append, List.nil_append]

/-- What a kind must be to be found again in front of its colon. -/
structure IsKind (k : Text) : Prop where
  no_colon : ':' ∉ k
  no_feed : '\n' ∉ k
  trimStart_eq : Text.trimStart k = k
  trim_eq : Text.trim k = k
  unsigned : ∃ c ∈ k.head?, c ≠ '!'

/-- No kind has a colon, a line feed or blanks around it, and none begins with the mark of
negation. -/
theorem isKind_kind (e : Expected) : IsKind (kind e) := by
  have herror : IsKind "error".toList :=
    ⟨by decide, by decide, by decide, by decide, 'e', by decide, by decide⟩
  have hwarning : IsKind "warning".toList :=
    ⟨by decide, by decide, by decide, by decide, 'w', by decide, by decide⟩
  have hsuggestion : IsKind "suggestion".toList :=
    ⟨by decide, by decide, by decide, by decide, 's', by decide, by decide⟩
  match e with
  | .finding .error _ _ => exact herror
  | .finding .warning _ _ => exact hwarning
  | .suggestion _ => exact hsuggestion

/-- A category and a text are told apart at the first colon, whatever stands in the text. -/
theorem categoryAndMention_append {category mention : Text} (hcategory : category.IsTrimmedLine)
    (hcolon : ':' ∉ category) (hmention : mention.IsTrimmedLine) :
    categoryAndMention (Text.trim (category ++ ':' :: ' ' :: mention)) = (category, mention) := by
  have hfront : ':' ∉ Text.trimStart category :=
    fun hmem => hcolon ((List.dropWhile_sublist _).mem hmem)
  rw [Text.trim_append_cons (by decide), categoryAndMention, Text.breakOnce?_append hfront]
  dsimp only
  rw [Text.trim_trimStart, Text.trim_trimEnd, Text.trim_blank_cons (by decide), hcategory.1,
    hmention.1]

/-- What a kind and the text behind its colon expect; blanks at the end do not matter. -/
theorem expected?_kind {k : Text} (hkind : IsKind k) (body : Text) :
    expected? (Text.trimEnd (k ++ ':' :: ' ' :: body)) =
      if k = "suggestion".toList then some (.suggestion (Text.trim body))
      else (Severity.ofName? k).map fun severity =>
        .finding severity (categoryAndMention (Text.trim body)).1
          (categoryAndMention (Text.trim body)).2 := by
  rw [Text.trimEnd_append_cons (by decide), expected?, Text.breakOnce?_append hkind.no_colon]
  dsimp only
  rw [Text.trim_trimEnd, Text.trim_blank_cons (by decide), hkind.trim_eq]

/-- What is described is expected. -/
theorem expected?_describeExpected {e : Expected} (h : IsWritable e) :
    expected? (Text.trimEnd (describeExpected e)) = some e := by
  rw [describeExpected_eq, expected?_kind (isKind_kind e)]
  cases e with
  | finding severity category mention =>
      rw [kind_finding, if_neg severity.name_ne_suggestion, Severity.ofName?_name, details,
        categoryAndMention_append h.1 h.2.1 h.2.2]
      rfl
  | suggestion mention =>
      rw [kind_suggestion, if_pos rfl, details, h.1]

/-- A description begins with its kind, so there are no blanks at its front to be taken. -/
theorem trimStart_describeExpected (e : Expected) :
    Text.trimStart (Text.trimEnd (describeExpected e)) = Text.trimEnd (describeExpected e) ∧
      Text.trim (describeExpected e) = Text.trimEnd (describeExpected e) := by
  have hkind := isKind_kind e
  rw [describeExpected_eq, Text.trim_append_cons (by decide), Text.trimEnd_append_cons (by decide),
    Text.trimStart_append_cons (by decide), hkind.trimStart_eq]
  exact ⟨rfl, rfl⟩

/-- No description looks negated. -/
theorem head?_trimEnd_describeExpected (e : Expected) :
    (Text.trimEnd (describeExpected e)).head? ≠ some '!' := by
  have hkind := isKind_kind e
  obtain ⟨c, hc, hunsigned⟩ := hkind.unsigned
  rw [describeExpected_eq, Text.trimEnd_append_cons (by decide), List.head?_append, hc]
  exact fun heq => hunsigned (Option.some.inj heq)

/-- **The line of an expectation** states it. -/
theorem ofLine?_line {e : Expectation} (h : IsWritable e.expected) : ofLine? e.line = some e := by
  obtain ⟨negated, e⟩ := e
  have hread := expected?_describeExpected h
  obtain ⟨hstart, htrim⟩ := trimStart_describeExpected e
  cases negated with
  | true =>
      have hsigned : Text.trim (line ⟨true, e⟩) = '!' :: Text.trimEnd (describeExpected e) :=
        Text.trim_append_cons (c := '!') (by decide) [] (describeExpected e)
      rw [ofLine?, hsigned]
      change (expected? (Text.trimStart (Text.trimEnd (describeExpected e)))).map _ = _
      rw [hstart, hread]
      rfl
  | false =>
      have hunsigned : Text.trim (line ⟨false, e⟩) = Text.trimEnd (describeExpected e) := htrim
      rw [ofLine?, hunsigned]
      split
      next rest heq => exact absurd (heq ▸ rfl) (head?_trimEnd_describeExpected e)
      next => rw [hread]; rfl

/-- A line that states an expectation is not the mark that closes a case. -/
theorem not_isMark_of_ofLine? {line : Text} {e : Expectation} (h : ofLine? line = some e) :
    TestCase.isMark "===" line = false := by
  by_contra hmark
  have hline : Text.trim line = "===".toList := by simpa [TestCase.isMark] using hmark
  have hnone : ofLine? line = none := by
    rw [ofLine?, hline]
    decide
  rw [hnone] at h
  cases h

/-- A description keeps to its line, with or without the mark of negation. -/
theorem isLine_append_describeExpected {sign : Text} (hsign : '\n' ∉ sign) {e : Expected}
    (h : IsWritable e) : (sign ++ describeExpected e).IsLine := by
  have hkind := (isKind_kind e).no_feed
  cases e with
  | finding severity category mention =>
      have hsplit : sign ++ describeExpected (.finding severity category mention) =
          (sign ++ (severity.name ++ ':' :: ' ' :: (category ++ [':']))) ++ ' ' :: mention := by
        simp [describeExpected_eq, kind_finding, details]
      have hfront : '\n' ∉ sign ++ (severity.name ++ ':' :: ' ' :: (category ++ [':'])) := by
        rw [kind_finding] at hkind
        simp [hsign, hkind, h.1.2]
      exact hsplit ▸ Text.isLine_append_blank hfront h.2.2
  | suggestion mention =>
      have hsplit : sign ++ describeExpected (.suggestion mention) =
          (sign ++ (kind (.suggestion mention) ++ [':'])) ++ ' ' :: mention := by
        simp [describeExpected_eq, details]
      have hfront : '\n' ∉ sign ++ (kind (.suggestion mention) ++ [':']) := by
        simp [hsign, hkind]
      exact hsplit ▸ Text.isLine_append_blank hfront h

/-- The line of an expectation is one line of a file. -/
theorem isLine_line {e : Expectation} (h : IsWritable e.expected) : e.line.IsLine := by
  obtain ⟨negated, e⟩ := e
  cases negated with
  | true =>
      have hsign : '\n' ∉ (['!'] : Text) := by decide
      exact isLine_append_describeExpected hsign h
  | false => exact isLine_append_describeExpected List.not_mem_nil h

end Expectation

namespace TestCase

/-! ## Cases written out -/

/-- The line that says whether a script is expected to be valid. -/
def verdictLine (valid : Bool) : Text :=
  if valid then "# expect: valid".toList else "# expect: invalid".toList

/-- The lines of a case behind its header. -/
def renderedBody (c : TestCase) : List Text :=
  verdictLine c.expectValid :: "---".toList ::
    (c.script.splitOn '\n' ++ "---".toList ::
      (c.expectations.map Expectation.line ++ ["===".toList]))

/-- The lines of a case. -/
def renderedLines (c : TestCase) : List Text := ("# test: ".toList ++ c.name) :: c.renderedBody

/-- A case as it is written to a file. -/
def render (c : TestCase) : Text := Text.unlines c.renderedLines

/-- Cases as they are written to a file, one after the other. -/
def renderAll (cases : List TestCase) : Text := cases.flatMap render

/-- What a case must be to be told from its lines. -/
structure IsWritable (c : TestCase) : Prop where
  name : c.name.IsTrimmedLine
  /-- No line of the script closes it, and no line ends in a carriage return. -/
  script : ∀ line ∈ c.script.splitOn '\n',
    Text.trim line ≠ "---".toList ∧ line.getLast? ≠ some '\r'
  expectations : ∀ e ∈ c.expectations, Expectation.IsWritable e.expected

instance : DecidablePred IsWritable := fun _ =>
  decidable_of_iff (_ ∧ _ ∧ _) ⟨fun h => ⟨h.1, h.2.1, h.2.2⟩, fun h => ⟨h.1, h.2, h.3⟩⟩

/-- Cases with the lines their headers have when they are written behind a text. -/
def placed (before : Text) : List TestCase → List TestCase
  | [] => []
  | c :: cases => { c with line := Text.lineAfter before } :: placed (before ++ c.render) cases

/-! ## Reading them back -/

/-- Lines are split at the first that bears the mark. -/
theorem splitAtMark_append {mark : String} {lines : List Text} {closing : Text}
    (hlines : ∀ line ∈ lines, isMark mark line = false) (hclosing : isMark mark closing = true)
    (rest : List Text) : splitAtMark mark (lines ++ closing :: rest) = (lines, rest) := by
  have hpass : ∀ line ∈ lines, (!isMark mark line) = true := fun line hmem => by
    rw [hlines line hmem, Bool.not_false]
  rw [splitAtMark, List.takeWhile_append_of_pos hpass, List.dropWhile_append_of_pos hpass]
  simp [hclosing]

/-- The verdict is told from its line. -/
theorem splitVerdict_verdictLine (valid : Bool) (rest : List Text) :
    splitVerdict (verdictLine valid :: rest) = (valid, rest) := by
  cases valid with
  | true =>
      have hafter : after? "# expect:" (verdictLine true) = some "valid".toList := by decide
      rw [splitVerdict, hafter]
      simp
  | false =>
      have hafter : after? "# expect:" (verdictLine false) = some "invalid".toList := by decide
      rw [splitVerdict, hafter]
      simp

/-- A header says the name. -/
theorem after?_header {name : Text} (h : name.IsTrimmedLine) :
    after? "# test:" ("# test: ".toList ++ name) = some name := by
  have hsplit : "# test: ".toList ++ name = "# test".toList ++ ':' :: ' ' :: name := by
    have hwords : "# test: ".toList = "# test".toList ++ [':', ' '] := by decide
    rw [hwords]
    simp only [List.append_assoc, List.cons_append, List.nil_append]
  have hstart : Text.trimStart "# test".toList = "# test".toList := by decide
  have htrim : Text.trim ("# test: ".toList ++ name) =
      "# test:".toList ++ Text.trimEnd (' ' :: name) := by
    have hwords : "# test:".toList = "# test".toList ++ [':'] := by decide
    rw [hsplit, Text.trim_append_cons (by decide), hstart, hwords]
    simp only [List.append_assoc, List.cons_append, List.nil_append]
  rw [after?, htrim, Text.dropFront?_append, Option.map_some, Text.trim_trimEnd,
    Text.trim_blank_cons (by decide), h.1]

/-- Behind its header a case is read as it was written, and ends with its own last line. -/
theorem ofLines_renderedBody_append {c : TestCase} (h : c.IsWritable) (number : Nat)
    (rest : List Text) :
    ofLines c.name number (c.renderedBody ++ rest) = ({ c with line := number }, rest) := by
  have hdashes : isMark "---" "---".toList = true := by decide
  have hclosing : isMark "===" "===".toList = true := by decide
  have hscript : ∀ line ∈ c.script.splitOn '\n', isMark "---" line = false := fun line hmem =>
    decide_eq_false (h.script line hmem).1
  have hexpectation : ∀ e ∈ c.expectations, (Expectation.ofLine? ∘ Expectation.line) e = some e :=
    fun e hmem => Expectation.ofLine?_line (h.expectations e hmem)
  have hexpectations : ∀ line ∈ c.expectations.map Expectation.line, isMark "===" line = false := by
    intro line hmem
    obtain ⟨e, he, rfl⟩ := List.mem_map.1 hmem
    exact Expectation.not_isMark_of_ofLine? (hexpectation e he)
  have hread : (c.expectations.map Expectation.line).filterMap Expectation.ofLine? =
      c.expectations := by
    rw [List.filterMap_map, List.filterMap_congr hexpectation, List.filterMap_some]
  have hbody : c.renderedBody ++ rest = verdictLine c.expectValid :: ([] ++ "---".toList ::
      (c.script.splitOn '\n' ++ "---".toList ::
        (c.expectations.map Expectation.line ++ "===".toList :: rest))) := by
    simp [renderedBody]
  rw [ofLines, hbody, splitVerdict_verdictLine]
  dsimp only
  rw [splitAtMark_append (by simp) hdashes]
  dsimp only
  rw [splitAtMark_append hscript hdashes]
  dsimp only
  rw [splitAtMark_append hexpectations hclosing]
  dsimp only
  rw [Text.join_feed_splitOn, hread]

/-- **One case** is read back, with the lines behind it left over. -/
theorem parseLines_renderedLines_append {c : TestCase} (h : c.IsWritable) (number : Nat)
    (rest : List Text) :
    parseLines number (c.renderedLines ++ rest) =
      { c with line := number } :: parseLines (number + c.renderedLines.length) rest := by
  rw [renderedLines, List.cons_append, parseLines, after?_header h.name]
  dsimp only
  rw [ofLines_renderedBody_append h]
  dsimp only
  have hnumber : number + 1 + ((c.renderedBody ++ rest).length - rest.length) =
      number + (("# test: ".toList ++ c.name) :: c.renderedBody).length := by
    rw [List.length_append, List.length_cons]
    omega
  rw [hnumber]

/-- Every line of a case that can be told from its lines is a line of the file. -/
theorem isLine_of_mem_renderedLines {c : TestCase} (h : c.IsWritable) :
    ∀ line ∈ c.renderedLines, line.IsLine := by
  have hheader : Text.IsLine ("# test: ".toList ++ c.name) := by
    have hwords : "# test: ".toList = "# test:".toList ++ [' '] := by decide
    have hfront : '\n' ∉ "# test:".toList := by decide
    rw [hwords, List.append_assoc]
    exact Text.isLine_append_blank hfront h.name
  have hverdict : (verdictLine c.expectValid).IsLine := by
    cases c.expectValid <;> exact ⟨by decide, by decide⟩
  have hdashes : Text.IsLine "---".toList := ⟨by decide, by decide⟩
  have hclosing : Text.IsLine "===".toList := ⟨by decide, by decide⟩
  intro line hmem
  simp only [renderedLines, renderedBody, List.mem_cons, List.mem_append, List.mem_map,
    List.not_mem_nil, or_false] at hmem
  rcases hmem with rfl | rfl | rfl | hscript | rfl | ⟨e, he, rfl⟩ | rfl
  · exact hheader
  · exact hverdict
  · exact hdashes
  · exact ⟨Text.not_mem_of_mem_splitOn hscript, (h.script line hscript).2⟩
  · exact hdashes
  · exact Expectation.isLine_line (h.expectations e he)
  · exact hclosing

/-- The cases in the lines of some cases, behind a text. -/
theorem parseLines_flatMap_renderedLines {cases : List TestCase} (h : ∀ c ∈ cases, c.IsWritable)
    (before : Text) :
    parseLines (Text.lineAfter before) (cases.flatMap renderedLines) = placed before cases := by
  induction cases generalizing before with
  | nil => rw [List.flatMap_nil, parseLines, placed]
  | cons c cases ih =>
      have hc := h c List.mem_cons_self
      have hcases := ih fun c hmem => h c (List.mem_cons_of_mem _ hmem)
      have hline : Text.lineAfter before + c.renderedLines.length =
          Text.lineAfter (before ++ c.render) := by
        rw [Text.lineAfter, Text.lineAfter, Text.feeds_append, render,
          Text.feeds_unlines (isLine_of_mem_renderedLines hc)]
        omega
      rw [List.flatMap_cons, parseLines_renderedLines_append hc, hline, hcases, placed]

/-- **A file of writable cases is read as these cases.** -/
theorem parse_renderAll {cases : List TestCase} (h : ∀ c ∈ cases, c.IsWritable) :
    parse (renderAll cases) = placed [] cases := by
  have hfile : renderAll cases = Text.unlines (cases.flatMap renderedLines) := by
    rw [renderAll, Text.unlines, List.flatMap_assoc]
    rfl
  have hlines : ∀ line ∈ cases.flatMap renderedLines, line.IsLine := by
    intro line hmem
    obtain ⟨c, hc, hline⟩ := List.mem_flatMap.1 hmem
    exact isLine_of_mem_renderedLines (h c hc) line hline
  rw [parse, hfile, Text.lines_unlines hlines]
  exact parseLines_flatMap_renderedLines h []

/-- Cases that hold what looks like other parts of a case file: a script with a header, a closing
mark and a line of an expectation in it, texts with colons and marks, and a case without a name. -/
def deceptive : List TestCase :=
  [{ name := "one: # test: two".toList
     line := 1
     script := "# test: three\n===\n!error: a: b\n\n--- x\n# expect: invalid".toList
     expectValid := false
     expectations := [⟨true, .finding .error "syntax".toList "!a: b:".toList⟩,
       ⟨false, .suggestion []⟩] },
   { name := []
     line := 14
     script := []
     expectValid := true
     expectations := [⟨true, .finding .warning [] "---".toList⟩] }]

/-- These cases are read back all the same. -/
theorem parse_renderAll_deceptive :
    (∀ c ∈ deceptive, c.IsWritable) ∧ parse (renderAll deceptive) = deceptive := by
  have hwritable : ∀ c ∈ deceptive, c.IsWritable := by decide +kernel
  exact ⟨hwritable, (parse_renderAll hwritable).trans (by decide +kernel)⟩

end TestCase

end Scriptwright
