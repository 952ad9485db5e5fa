import Scriptwright.Proofs.FindingLines

/-!
# Loops and the depth of each character

What the walk over the loops of a code finds is a matter of how deep each character
lies.  `LoopShape.measure` says what is to be found if the depths are given: the
greatest depth, the line of the first brace at that depth, and the line of the first
plus sign in a loop that appends a string.

The walk keeps two things apart.  Its control (`LoopShape.Control`) is moved on by the
tokens alone, and decides at which depth each character lies
(`LoopShape.Control.trace`).  Its findings depend on the control only through those
depths: a step adds to them what the characters of its token add
(`LoopShape.Walk.shape_run`).  Hence for every code **the shape of its loops is what is
measured of the depths that the control gives to its characters**
(`LoopShape.ofCode_eq_measure`).
-/

namespace Scriptwright

namespace LoopShape

/-! ## Tokens and their characters -/

namespace Token

/-- The characters of a token. -/
def text : Token → Text
  | word _ name => name
  | mark c => [c]

/-- A word begins as a word does and goes on with name characters. -/
def IsProper : Token → Prop
  | word _ name => ∃ c rest, name = c :: rest ∧ beginsWord c = true ∧
      ∀ d ∈ rest, isNameChar d = true
  | mark _ => True

end Token

/-- A word goes on with whatever it can begin with. -/
theorem isNameChar_of_beginsWord {c : Char} (h : beginsWord c = true) : isNameChar c = true := by
  simp only [beginsWord, isNameChar, isAlphanumeric, Bool.or_eq_true] at h ⊢
  tauto

/-- The characters of a word are those that a name can have. -/
theorem Token.IsProper.isNameChar {afterPoint : Bool} {name : Text}
    (h : (Token.word afterPoint name).IsProper) : ∀ c ∈ name, isNameChar c = true := by
  obtain ⟨c, rest, rfl, hbegins, hrest⟩ := h
  exact List.forall_mem_cons.2 ⟨isNameChar_of_beginsWord hbegins, hrest⟩

/-- The characters that a word has so far. -/
def wordText : Option (Bool × Text) → Text
  | some (_, word) => word.reverse
  | none => []

/-- **Nothing of a code is lost** in its tokens. -/
theorem flatMap_text_tokensFrom (before : Option Char) (current : Option (Bool × Text)) (t : Text) :
    (tokensFrom before current t).flatMap Token.text = wordText current ++ t := by
  induction t generalizing before current with
  | nil => cases current <;> simp [tokensFrom, wordText, Token.text]
  | cons c t ih =>
      cases current with
      | none =>
          rw [tokensFrom]
          split <;> simp [ih, wordText, Token.text]
      | some word =>
          obtain ⟨afterPoint, word⟩ := word
          rw [tokensFrom]
          split <;> simp [ih, wordText, Token.text]

/-- **The tokens of a text spell it out**, with nothing left over. -/
theorem flatMap_text_tokens (t : Text) : (tokens t).flatMap Token.text = t :=
  flatMap_text_tokensFrom none none t

/-- Tokens are proper if the word that has begun already is. -/
theorem isProper_of_mem_tokensFrom {before : Option Char} {current : Option (Bool × Text)}
    {t : Text} (hcurrent : ∀ word ∈ current, (Token.word word.1 word.2.reverse).IsProper) :
    ∀ token ∈ tokensFrom before current t, token.IsProper := by
  induction t generalizing before current with
  | nil =>
      cases current with
      | none => simp [tokensFrom]
      | some word =>
          rintro token htoken
          obtain rfl := List.mem_singleton.1 htoken
          exact hcurrent word rfl
  | cons c t ih =>
      cases current with
      | none =>
          rw [tokensFrom]
          split
          next hbegins =>
            refine ih fun word hword => ?_
            obtain rfl := Option.some.inj hword
            exact ⟨c, [], rfl, hbegins, by simp⟩
          next => exact List.forall_mem_cons.2 ⟨trivial, ih (by simp)⟩
      | some word =>
          obtain ⟨afterPoint, word⟩ := word
          have hproper := hcurrent (afterPoint, word) rfl
          rw [tokensFrom]
          split
          next hname =>
            refine ih fun longer hlonger => ?_
            obtain rfl := Option.some.inj hlonger
            obtain ⟨d, rest, hword, hbegins, hrest⟩ := hproper
            refine ⟨d, rest ++ [c], by simp [hword], hbegins, fun e he => ?_⟩
            rcases List.mem_append.1 he with he | he
            · exact hrest e he
            · rw [List.mem_singleton.1 he]
              exact hname
          next =>
            exact List.forall_mem_cons.2 ⟨hproper, List.forall_mem_cons.2 ⟨trivial, ih (by simp)⟩⟩

/-- The tokens of a text are proper. -/
theorem isProper_of_mem_tokens {t : Text} : ∀ token ∈ tokens t, token.IsProper :=
  isProper_of_mem_tokensFrom (by simp)

/-! ## What is measured -/

/-- The greatest depth. -/
def greatest (points : List (Char × Nat)) : Nat := points.foldr (fun point => max point.2) 0

/-- The line of the first character that has a property together with its depth and with what
follows it. -/
def firstLine (isSought : Char → Nat → Text → Bool) (line : Nat) :
    List (Char × Nat) → Option Nat
  | [] => none
  | (c, depth) :: rest =>
      if isSought c depth (rest.map Prod.fst) then some line
      else firstLine isSought (if c = '\n' then line + 1 else line) rest

/-- An opening brace at a depth. -/
def opensAt (greatest : Nat) (c : Char) (depth : Nat) (_ : Text) : Bool :=
  c == '{' && depth == greatest

/-- An equals sign and, after optional blanks, a quote. -/
def addsString : Text → Bool
  | '=' :: rest => (rest.dropWhile isBlank).head?.any fun c => c == '"' || c == '\''
  | _ => false

/-- A plus sign in the body of a loop that appends a string. -/
def addsAt (c : Char) (depth : Nat) (rest : Text) : Bool :=
  c == '+' && decide (0 < depth) && addsString rest

/-- What is to be found in a code, from its characters with the number of loop bodies that each
belongs to. -/
def measure (points : List (Char × Nat)) : LoopShape where
  maxDepth := greatest points
  deepestLine :=
    if greatest points = 0 then none else firstLine (opensAt (greatest points)) 1 points
  concatLine := firstLine addsAt 1 points

/-- What is found in the end, from what was found up to a line and the characters from there on. -/
def extend (found : LoopShape) (line : Nat) (points : List (Char × Nat)) : LoopShape where
  maxDepth := max found.maxDepth (greatest points)
  deepestLine :=
    if greatest points ≤ found.maxDepth then found.deepestLine
    else firstLine (opensAt (greatest points)) line points
  concatLine := found.concatLine.or (firstLine addsAt line points)

/-- Nothing more is found where there is nothing more. -/
theorem extend_nil (found : LoopShape) (line : Nat) : extend found line [] = found := by
  simp [extend, greatest, firstLine]

/-- What is measured is what is found in the end, from nothing. -/
theorem measure_eq_extend (points : List (Char × Nat)) :
    measure points = extend ⟨0, none, none⟩ 1 points := by
  simp [measure, extend]

/-- A character that is not deeper than before and appends nothing new adds nothing. -/
theorem extend_skip {found : LoopShape} {depth : Nat} (hdepth : depth ≤ found.maxDepth) {c : Char}
    {points : List (Char × Nat)}
    (hadds : addsAt c depth (points.map Prod.fst) = false ∨ found.concatLine.isSome = true)
    (line : Nat) :
    extend found line ((c, depth) :: points) =
      extend found (if c = '\n' then line + 1 else line) points := by
  have hgreatest : greatest ((c, depth) :: points) = max depth (greatest points) := rfl
  have hconcat : found.concatLine.or (firstLine addsAt line ((c, depth) :: points)) =
      found.concatLine.or (firstLine addsAt (if c = '\n' then line + 1 else line) points) := by
    rcases hadds with hadds | hsome
    · rw [firstLine, hadds]
      rfl
    · obtain ⟨n, hn⟩ := Option.isSome_iff_exists.1 hsome
      rw [hn]
      rfl
  rw [extend, extend, hconcat, hgreatest, ← max_assoc, max_eq_left hdepth]
  by_cases hle : greatest points ≤ found.maxDepth
  · rw [if_pos hle, if_pos (max_le hdepth hle)]
  · have hlt : depth < greatest points := hdepth.trans_lt (Nat.lt_of_not_le hle)
    have hmax : max depth (greatest points) = greatest points := max_eq_right hlt.le
    have hsought : opensAt (greatest points) c depth (points.map Prod.fst) = false := by
      simp [opensAt, hlt.ne]
    rw [hmax, if_neg hle, if_neg hle, firstLine, hsought]
    rfl

/-- A brace that is deeper than before is the first at its depth. -/
theorem extend_open {found : LoopShape} {depth : Nat} (hdepth : found.maxDepth < depth)
    (line : Nat) (points : List (Char × Nat)) :
    extend found line (('{', depth) :: points) =
      extend ⟨depth, some line, found.concatLine⟩ line points := by
  have hgreatest : greatest (('{', depth) :: points) = max depth (greatest points) := rfl
  have hadds : addsAt '{' depth (points.map Prod.fst) = false := rfl
  have hfeed : ¬ '{' = '\n' := by decide
  have hdeeper : ¬ max depth (greatest points) ≤ found.maxDepth :=
    Nat.not_le.2 (hdepth.trans_le (le_max_left _ _))
  have hmax : max found.maxDepth (max depth (greatest points)) = max depth (greatest points) :=
    max_eq_right (Nat.le_of_not_le fun h => hdeeper h)
  rw [extend, extend, hgreatest, hmax, if_neg hdeeper, firstLine, firstLine, hadds, if_neg hfeed]
  by_cases hle : greatest points ≤ depth
  · have hsought : opensAt depth '{' depth (points.map Prod.fst) = true := by simp [opensAt]
    rw [max_eq_left hle, if_pos hle, if_pos hsought]
    rfl
  · have hlt := Nat.lt_of_not_le hle
    have hsought : opensAt (greatest points) '{' depth (points.map Prod.fst) = false := by
      simp [opensAt, hlt.ne]
    rw [max_eq_right hlt.le, if_neg hle, hsought]
    rfl

/-- A plus sign that appends a string is the first if none was found before. -/
theorem extend_add {found : LoopShape} {depth : Nat} (hdepth : depth ≤ found.maxDepth)
    {points : List (Char × Nat)} (hadds : addsAt '+' depth (points.map Prod.fst) = true)
    (hnone : found.concatLine = none) (line : Nat) :
    extend found line (('+', depth) :: points) =
      extend { found with concatLine := some line } line points := by
  have hsome : extend { found with concatLine := some line } line (('+', depth) :: points) =
      extend { found with concatLine := some line } line points :=
    (extend_skip (by exact hdepth) (.inr rfl) line).trans (by rw [if_neg (by decide)])
  have hfirst : firstLine addsAt line (('+', depth) :: points) = some line := if_pos hadds
  rw [← hsome, extend, extend, hnone, hfirst]
  rfl

/-! ## The control of the walk -/

/-- The part of the walk that decides which braces open the bodies of loops. -/
structure Control where
  braces : List Bool
  parens : Nat
  header : Option Nat
  awaitingHeader : Bool
  awaitingBody : Bool
deriving DecidableEq

/-- The control of a walk. -/
def Walk.control (w : Walk) : Control :=
  ⟨w.braces, w.parens, w.header, w.awaitingHeader, w.awaitingBody⟩

namespace Control

/-- A walk with this control that has found nothing yet. -/
def walk (c : Control) : Walk :=
  ⟨c.braces, c.parens, c.header, c.awaitingHeader, c.awaitingBody, 1, ⟨0, none, none⟩⟩

/-- Number of loop bodies that are open. -/
def depth (c : Control) : Nat := c.braces.count true

/-- The control behind a token. -/
def step (c : Control) : Token → Control
  | .word afterPoint name => (c.walk.readWord afterPoint name).control
  | .mark m => (c.walk.readMark m []).control

/-- The control behind some tokens. -/
def after (c : Control) (tokens : List Token) : Control := tokens.foldl step c

/-- The characters of some tokens, each with the number of loop bodies that it belongs to.  The
braces of a body belong to it. -/
def trace (c : Control) : List Token → List (Char × Nat)
  | [] => []
  | token :: rest =>
      (token.text.map fun m => (m, max c.depth (c.step token).depth)) ++ (c.step token).trace rest

/-- The depths of tokens one after the other. -/
theorem trace_append (c : Control) (tokens more : List Token) :
    c.trace (tokens ++ more) = c.trace tokens ++ (c.after tokens).trace more := by
  induction tokens generalizing c with
  | nil => rfl
  | cons token tokens ih => rw [List.cons_append, trace, trace, ih, List.append_assoc]; rfl

/-- The control behind tokens one after the other. -/
theorem after_append (c : Control) (tokens more : List Token) :
    c.after (tokens ++ more) = (c.after tokens).after more := List.foldl_append

/-- The depths are given for the characters of the tokens, all of them and in order. -/
theorem map_fst_trace (c : Control) (tokens : List Token) :
    (c.trace tokens).map Prod.fst = tokens.flatMap Token.text := by
  induction tokens generalizing c with
  | nil => rfl
  | cons token tokens ih => simp [trace, ih, Function.comp_def]

end Control

namespace Walk

/-- The depth of a walk is that of its control. -/
theorem depth_control (w : Walk) : w.control.depth = w.depth := rfl

/-- **The control does not depend on the findings**, nor on what follows. -/
theorem control_readMark_congr {w w' : Walk} (h : w.control = w'.control) (c : Char)
    (rest rest' : List Token) : (w.readMark c rest).control = (w'.readMark c rest').control := by
  obtain ⟨braces, parens, header, awaitingHeader, awaitingBody, line, shape⟩ := w
  obtain ⟨braces', parens', header', awaitingHeader', awaitingBody', line', shape'⟩ := w'
  simp only [control, Control.mk.injEq] at h
  obtain ⟨rfl, rfl, rfl, rfl, rfl⟩ := h
  unfold readMark openParen closeParen openBrace closeBrace readPlus settle
  dsimp only
  split_ifs <;> rfl

/-- A mark is read as the control alone would read it. -/
theorem control_readMark (w : Walk) (c : Char) (rest : List Token) :
    (w.readMark c rest).control = w.control.step (.mark c) := by
  have hsame : w.control = w.control.walk.control := rfl
  exact control_readMark_congr hsame c rest []

/-- So is a word. -/
theorem control_readWord (w : Walk) (afterPoint : Bool) (name : Text) :
    (w.readWord afterPoint name).control = w.control.step (.word afterPoint name) := by
  unfold Control.step readWord
  dsimp only
  split_ifs <;> rfl

/-- A quote behind blanks is the same in tokens as in characters. -/
theorem quote_behind_blanks {tokens : List Token} (hproper : ∀ token ∈ tokens, token.IsProper) :
    (match tokens.dropWhile Token.isBlank with
      | .mark c :: _ => c == '"' || c == '\''
      | _ => false) =
      ((tokens.flatMap Token.text).dropWhile isBlank).head?.any fun c => c == '"' || c == '\'' := by
  induction tokens with
  | nil => rfl
  | cons token tokens ih =>
      obtain ⟨htoken, hrest⟩ := List.forall_mem_cons.1 hproper
      cases token with
      | mark c =>
          by_cases hc : isBlank c = true
          · simpa [Token.isBlank, Token.text, hc] using ih hrest
          · simp [Token.isBlank, Token.text, hc]
      | word afterPoint name =>
          obtain ⟨c, rest, rfl, hbegins, -⟩ := htoken
          have hname := isNameChar_of_beginsWord hbegins
          have hblank : isBlank c = false := by
            by_contra hblank
            rw [isNameChar_of_isBlank (Bool.of_not_eq_false hblank)] at hname
            cases hname
          have hdouble : c ≠ '"' := by rintro rfl; revert hname; decide
          have hsingle : c ≠ '\'' := by rintro rfl; revert hname; decide
          simp [Token.isBlank, Token.text, hblank, hdouble, hsingle]

/-- What follows a plus sign is the same in tokens as in characters. -/
theorem appendsString_eq {tokens : List Token} (hproper : ∀ token ∈ tokens, token.IsProper) :
    appendsString tokens = addsString (tokens.flatMap Token.text) := by
  cases tokens with
  | nil => rfl
  | cons token tokens =>
      obtain ⟨htoken, hrest⟩ := List.forall_mem_cons.1 hproper
      cases token with
      | mark c =>
          by_cases hc : c = '='
          · subst hc
            exact quote_behind_blanks hrest
          · simp [appendsString, addsString, Token.text, hc]
      | word afterPoint name =>
          obtain ⟨c, rest, rfl, hbegins, -⟩ := htoken
          have hc : c ≠ '=' := by rintro rfl; revert hbegins; decide
          simp [appendsString, addsString, Token.text, hc]

/-- Nothing is added by the characters of a word. -/
theorem extend_word {found : LoopShape} {depth : Nat} (hdepth : depth ≤ found.maxDepth)
    {name : Text} (hname : ∀ c ∈ name, isNameChar c = true) (line : Nat)
    (points : List (Char × Nat)) :
    extend found line ((name.map fun m => (m, depth)) ++ points) = extend found line points := by
  induction name with
  | nil => rfl
  | cons c name ih =>
      obtain ⟨hc, hname⟩ := List.forall_mem_cons.1 hname
      have hfeed : c ≠ '\n' := by rintro rfl; revert hc; decide
      have hplus : c ≠ '+' := by rintro rfl; revert hc; decide
      rw [List.map_cons, List.cons_append, extend_skip hdepth (.inl (by simp [addsAt, hplus])),
        if_neg hfeed, ih hname]

/-- What is given up between statements is awaited, not open. -/
@[simp] theorem depth_settle (w : Walk) : w.settle.depth = w.depth := by
  unfold settle; split <;> rfl

/-- A parenthesis that opens is no brace. -/
@[simp] theorem depth_openParen (w : Walk) : w.openParen.depth = w.depth := by
  unfold openParen
  dsimp only
  split_ifs <;> rfl

/-- A parenthesis that closes is none either. -/
@[simp] theorem depth_closeParen (w : Walk) : w.closeParen.depth = w.depth := by
  unfold closeParen
  dsimp only
  split_ifs <;> rfl

/-- A brace that closes does not open a loop. -/
theorem depth_closeBrace_le (w : Walk) : w.closeBrace.depth ≤ w.depth :=
  (List.tail_sublist w.braces).count_le true

/-- A plus sign leaves the braces alone. -/
@[simp] theorem depth_readPlus (w : Walk) (rest : List Token) :
    (w.readPlus rest).depth = w.depth := by
  unfold readPlus; split <;> rfl

/-- So does a word, even one that begins a loop: its body is not open yet. -/
theorem depth_readWord (w : Walk) (afterPoint : Bool) (name : Text) :
    (w.readWord afterPoint name).depth = w.depth := by
  unfold readWord
  dsimp only
  split_ifs <;> rfl

/-- **An opening brace** adds its depth if no loop body has been as deep. -/
theorem shape_openBrace {w : Walk} (h : w.depth ≤ w.shape.maxDepth) (points : List (Char × Nat)) :
    w.openBrace.depth ≤ w.openBrace.shape.maxDepth ∧
      extend w.shape w.line (('{', max w.depth w.openBrace.depth) :: points) =
        extend w.openBrace.shape w.openBrace.line points := by
  have hskip {depth : Nat} (hdepth : depth ≤ w.shape.maxDepth) :
      extend w.shape w.line (('{', depth) :: points) = extend w.shape w.line points := by
    rw [extend_skip hdepth (.inl rfl), if_neg (by decide)]
  cases hbody : w.awaitingBody with
  | false =>
      have hdepth : w.openBrace.depth = w.depth := by
        simp [openBrace, hbody, depth]
      have hshape : w.openBrace.shape = w.shape := by simp [openBrace, hbody]
      have hline : w.openBrace.line = w.line := by simp [openBrace, hbody]
      rw [hdepth, hshape, hline, max_self, hskip h]
      exact ⟨h, rfl⟩
  | true =>
      have hcount : (w.awaitingBody :: w.braces).count true = w.depth + 1 := by simp [hbody, depth]
      unfold openBrace
      dsimp only
      split_ifs with hdeeper
      · have hlt : w.shape.maxDepth < w.depth + 1 := hcount ▸ hdeeper.2
        simp only [depth, hcount]
        rw [max_eq_right (Nat.le_succ _)]
        exact ⟨Nat.le_refl _, extend_open hlt w.line points⟩
      · have hle : w.depth + 1 ≤ w.shape.maxDepth :=
          Nat.le_of_not_lt fun hlt => hdeeper ⟨hbody, hlt.trans_eq hcount.symm⟩
        simp only [depth, hcount]
        rw [max_eq_right (Nat.le_succ _)]
        exact ⟨hle, hskip hle⟩

/-- **A plus sign** adds its line if it is the first in a loop that appends a string. -/
theorem shape_readPlus {w : Walk} (h : w.depth ≤ w.shape.maxDepth) {rest : List Token}
    (hproper : ∀ token ∈ rest, token.IsProper) {points : List (Char × Nat)}
    (hpoints : points.map Prod.fst = rest.flatMap Token.text) :
    (w.readPlus rest).shape.maxDepth = w.shape.maxDepth ∧
      extend w.shape w.line (('+', w.depth) :: points) =
        extend (w.readPlus rest).shape (w.readPlus rest).line points := by
  have hadds : addsAt '+' w.depth (points.map Prod.fst) =
      (decide (0 < w.depth) && appendsString rest) := by
    rw [hpoints, appendsString_eq hproper]
    rfl
  unfold readPlus
  split_ifs with hfirst
  · refine ⟨rfl, extend_add h ?_ hfirst.2.1 w.line⟩
    rw [hadds, hfirst.2.2, decide_eq_true hfirst.1]
    rfl
  · have hnot : addsAt '+' w.depth (points.map Prod.fst) = false ∨
        w.shape.concatLine.isSome = true := by
      rw [hadds]
      cases hconcat : w.shape.concatLine with
      | some n => exact .inr rfl
      | none => simpa [hconcat, Nat.pos_iff_ne_zero] using hfirst
    refine ⟨rfl, ?_⟩
    rw [extend_skip h hnot, if_neg (by decide)]

/-- **One character** adds what it adds at its depth, and the depth stays within the greatest. -/
theorem shape_readMark {w : Walk} (h : w.depth ≤ w.shape.maxDepth) (c : Char) {rest : List Token}
    (hproper : ∀ token ∈ rest, token.IsProper) {points : List (Char × Nat)}
    (hpoints : points.map Prod.fst = rest.flatMap Token.text) :
    (w.readMark c rest).depth ≤ (w.readMark c rest).shape.maxDepth ∧
      extend w.shape w.line ((c, max w.depth (w.readMark c rest).depth) :: points) =
        extend (w.readMark c rest).shape (w.readMark c rest).line points := by
  have hquiet {w' : Walk} (hshape : w'.shape = w.shape)
      (hline : w'.line = if c = '\n' then w.line + 1 else w.line) (hdepth : w'.depth ≤ w.depth)
      (hplus : c ≠ '+') : w'.depth ≤ w'.shape.maxDepth ∧
        extend w.shape w.line ((c, max w.depth w'.depth) :: points) =
          extend w'.shape w'.line points := by
    have hadds : addsAt c w.depth (points.map Prod.fst) = false := by simp [addsAt, hplus]
    rw [max_eq_left hdepth, extend_skip h (.inl hadds), hshape, hline]
    exact ⟨hdepth.trans h, rfl⟩
  unfold readMark
  split_ifs with hfeed hopen hclose hbrace hend hplus hblank
  · subst hfeed
    exact hquiet rfl rfl (Nat.le_refl _) (by decide)
  · subst hopen
    obtain ⟨hline, hshape⟩ := line_shape_openParen w
    exact hquiet (by simp [hshape]) (by simp [hline]) (by simp) (by decide)
  · subst hclose
    obtain ⟨hline, hshape⟩ := line_shape_closeParen w
    exact hquiet hshape (by simp [hline]) (by simp) (by decide)
  · subst hbrace
    exact shape_openBrace h points
  · subst hend
    exact hquiet (by simp [closeBrace]) (by simp [closeBrace])
      (by simpa using depth_closeBrace_le w) (by decide)
  · subst hplus
    obtain ⟨hmax, hextend⟩ := shape_readPlus h hproper hpoints
    simp only [depth_settle, depth_readPlus, shape_settle, line_settle, max_self, hmax]
    exact ⟨h, hextend⟩
  · exact hquiet rfl (if_neg hfeed).symm (Nat.le_refl _) hplus
  · exact hquiet (by simp) (by simp [hfeed]) (by simp) hplus

/-- **The whole walk** adds what the characters add at their depths. -/
theorem shape_run {w : Walk} (h : w.depth ≤ w.shape.maxDepth) {tokens : List Token}
    (hproper : ∀ token ∈ tokens, token.IsProper) :
    (w.run tokens).shape = extend w.shape w.line (w.control.trace tokens) := by
  induction tokens generalizing w with
  | nil => rw [run, Control.trace, extend_nil]
  | cons token tokens ih =>
      obtain ⟨htoken, hrest⟩ := List.forall_mem_cons.1 hproper
      cases token with
      | word afterPoint name =>
          obtain ⟨hline, hshape⟩ := line_shape_readWord w afterPoint name
          have hdepth := depth_readWord w afterPoint name
          have hwithin : (w.readWord afterPoint name).depth ≤
              (w.readWord afterPoint name).shape.maxDepth := by
            rw [hdepth, hshape]
            exact h
          rw [run, ih hwithin hrest, hline, hshape, Control.trace, ← control_readWord,
            depth_control, depth_control, hdepth, max_self]
          exact (extend_word h htoken.isNameChar w.line _).symm
      | mark c =>
          have hpoints := Control.map_fst_trace (w.readMark c tokens).control tokens
          obtain ⟨hwithin, hstep⟩ := shape_readMark h c hrest hpoints
          rw [run, ih hwithin hrest, ← hstep, Control.trace,
            ← control_readMark w c tokens, depth_control, depth_control]
          rfl

end Walk

/-- **The shape of the loops of a code** is what is measured of the depths that the control gives to
its characters. -/
theorem ofCode_eq_measure (code : Text) :
    ofCode code = measure (Walk.start.control.trace (tokens code)) := by
  have hdepth : Walk.start.depth ≤ Walk.start.shape.maxDepth := Nat.le_refl 0
  rw [ofCode, Walk.shape_run hdepth isProper_of_mem_tokens, measure_eq_extend]
  rfl

end LoopShape

end Scriptwright
