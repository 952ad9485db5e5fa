import Scriptwright.Proofs.LoopDepths

/-!
# Loops in structured programs

A structured program (`LoopShape.Program`) is made of simple statements, blocks,
branches, loops with braces, declarations of functions and calls with a function as
their argument, with blanks wherever tokens meet.  Its grammar says how many loop bodies
each of its characters belongs to (`LoopShape.Program.points`).

The walk does not know the grammar.  Between statements its control is at rest: no
header is being read and neither a header nor a body is awaited.  Each part of a
statement takes the control from one such state to another
(`LoopShape.Reads`): the keyword of a loop makes it seek a header, the parenthesis that
closes the header a body, and a brace ends the search.  What is read in between leaves
the braces and parentheses as they were, so a statement ends where it began
(`LoopShape.Statement.reads`), and the depths are those of the grammar.

With what is known of the depths of any code, **the shape of a structured program is what
is measured of the depths that its grammar gives** (`LoopShape.ofCode_text`).
-/

namespace Scriptwright

namespace LoopShape

/-! ## Tokens of texts side by side -/

/-- Two texts with no word across their border, nor a point before a word. -/
def Apart (t u : Text) : Prop :=
  (∀ c ∈ u.head?, isNameChar c = false) ∨ ∀ c ∈ t.getLast?, isNameChar c = false ∧ c ≠ '.'

/-- What cannot be part of a word cannot begin one. -/
theorem beginsWord_of_isNameChar {c : Char} (h : isNameChar c = false) : beginsWord c = false := by
  by_contra hbegins
  rw [isNameChar_of_beginsWord (Bool.of_not_eq_false hbegins)] at h
  cases h

/-- Of the character before a text only matters whether it is a point. -/
theorem tokensFrom_before {before before' : Option Char}
    (h : (before == some '.') = (before' == some '.')) (t : Text) :
    tokensFrom before none t = tokensFrom before' none t := by
  cases t with
  | nil => rfl
  | cons c t => rw [tokensFrom, tokensFrom, h]

/-- A text that does not go on with a word is cut into tokens by itself, whatever was read before
it. -/
theorem tokensFrom_append {u : Text} (hu : ∀ c ∈ u.head?, isNameChar c = false)
    (before : Option Char) (current : Option (Bool × Text)) (t : Text) :
    tokensFrom before current (t ++ u) = tokensFrom before current t ++ tokens u := by
  induction t generalizing before current with
  | nil =>
      cases u with
      | nil => simp [tokens, tokensFrom]
      | cons c u =>
          have hname : isNameChar c = false := hu c rfl
          have hbegins := beginsWord_of_isNameChar hname
          cases current with
          | none => simp [tokens, tokensFrom, hbegins]
          | some word =>
              obtain ⟨afterPoint, word⟩ := word
              simp [tokens, tokensFrom, hname, hbegins]
  | cons c t ih =>
      cases current with
      | none =>
          rw [List.cons_append, tokensFrom, tokensFrom]
          split <;> simp [ih]
      | some word =>
          obtain ⟨afterPoint, word⟩ := word
          rw [List.cons_append, tokensFrom, tokensFrom]
          split <;> simp [ih]

/-- A mark that is not a point leaves nothing behind for the tokens that follow. -/
theorem tokens_cons {c : Char} (hname : isNameChar c = false) (hpoint : c ≠ '.') (t : Text) :
    tokens (c :: t) = .mark c :: tokens t := by
  have hbefore : (some c == some '.') = (none == some '.') := by simp [hpoint]
  rw [tokens, tokensFrom, beginsWord_of_isNameChar hname]
  exact congrArg (Token.mark c :: ·) (tokensFrom_before hbefore t)

/-- **Texts that are apart** are cut into tokens each for itself. -/
theorem tokens_append {t u : Text} (h : Apart t u) : tokens (t ++ u) = tokens t ++ tokens u := by
  rcases h with hu | ht
  · exact tokensFrom_append hu none none t
  · rcases List.eq_nil_or_concat t with rfl | ⟨front, c, rfl⟩
    · rfl
    · obtain ⟨hname, hpoint⟩ := ht c (by simp)
      have hfront (rest : Text) :
          tokens (front ++ c :: rest) = tokens front ++ tokens (c :: rest) :=
        tokensFrom_append (by simpa using hname) none none front
      rw [List.concat_eq_append, List.append_assoc, List.singleton_append, hfront, hfront,
        tokens_cons hname hpoint, tokens_cons hname hpoint, List.append_assoc]
      rfl

/-! ## Reading -/

/-- A text whose characters all lie at one depth. -/
def flat (depth : Nat) (t : Text) : List (Char × Nat) := t.map fun c => (c, depth)

@[simp] theorem map_fst_flat (depth : Nat) (t : Text) : (flat depth t).map Prod.fst = t := by
  simp [flat, Function.comp_def]

/-- Texts at one depth, one after the other, are their text at that depth. -/
theorem flat_append (depth : Nat) (t u : Text) :
    flat depth (t ++ u) = flat depth t ++ flat depth u := List.map_append

/-- The control reads characters at these depths and comes to another state. -/
structure Reads (c : Control) (points : List (Char × Nat)) (c' : Control) : Prop where
  trace : c.trace (tokens (points.map Prod.fst)) = points
  after : c.after (tokens (points.map Prod.fst)) = c'

namespace Reads

variable {c c' c'' : Control} {points points' : List (Char × Nat)}

/-- **What is read in two parts** is read as a whole if the parts are apart. -/
theorem append (h : Reads c points c') (h' : Reads c' points' c'')
    (hapart : Apart (points.map Prod.fst) (points'.map Prod.fst)) :
    Reads c (points ++ points') c'' := by
  have htokens := tokens_append hapart
  rw [← List.map_append] at htokens
  constructor
  · rw [htokens, Control.trace_append, h.trace, h.after, h'.trace]
  · rw [htokens, Control.after_append, h.after, h'.after]

/-- Nothing is read, and nothing changes. -/
theorem nil (c : Control) : Reads c [] c := ⟨rfl, rfl⟩

/-- A single character. -/
theorem mark {m : Char} (hm : beginsWord m = false) :
    Reads c [(m, max c.depth (c.step (.mark m)).depth)] (c.step (.mark m)) := by
  have htokens : tokens [m] = [.mark m] := by simp [tokens, tokensFrom, hm]
  constructor
  · rw [List.map_singleton, htokens]
    rfl
  · rw [List.map_singleton, htokens]
    rfl

end Reads

namespace Control

/-- Nothing is awaited; a header may be being read. -/
def resting (braces : List Bool) (parens : Nat) (header : Option Nat) : Control :=
  ⟨braces, parens, header, false, false⟩

/-- The keyword of a loop was read. -/
def seekingHeader (braces : List Bool) (parens : Nat) : Control :=
  ⟨braces, parens, none, true, false⟩

/-- The header of a loop was read, or the keyword of one that has its header at the end. -/
def seekingBody (braces : List Bool) (parens : Nat) : Control :=
  ⟨braces, parens, none, false, true⟩

/-- The depth is the number of braces that belong to loops. -/
theorem depth_resting (braces : List Bool) (parens : Nat) (header : Option Nat) :
    (resting braces parens header).depth = braces.count true := rfl

variable (braces : List Bool) (parens : Nat)

/-- A semicolon between statements changes nothing. -/
theorem resting_semicolon :
    (resting braces parens none).step (.mark ';') = resting braces parens none := rfl

/-- A semicolon where a body is sought means that there is none with braces. -/
theorem seekingBody_semicolon :
    (seekingBody braces parens).step (.mark ';') = resting braces parens none := rfl

/-- A parenthesis opens. -/
theorem resting_open :
    (resting braces parens none).step (.mark '(') = resting braces (parens + 1) none := rfl

/-- The parenthesis of a header opens, and it is noted which one it is. -/
theorem seekingHeader_open :
    (seekingHeader braces parens).step (.mark '(') =
      resting braces (parens + 1) (some parens) := rfl

/-- A parenthesis closes. -/
theorem resting_close :
    (resting braces (parens + 1) none).step (.mark ')') = resting braces parens none := rfl

/-- Behind the parenthesis that closes the header, a body is sought. -/
theorem header_close :
    (resting braces (parens + 1) (some parens)).step (.mark ')') = seekingBody braces parens := by
  simp [step, walk, resting, seekingBody, Walk.readMark, Walk.closeParen, Walk.control]

/-- A brace between statements opens a block that is no loop. -/
theorem resting_brace :
    (resting braces parens none).step (.mark '{') = resting (false :: braces) parens none := rfl

/-- A brace where a body is sought opens the body of a loop. -/
theorem seekingBody_brace :
    (seekingBody braces parens).step (.mark '{') = resting (true :: braces) parens none := by
  show (seekingBody braces parens).walk.openBrace.control = _
  unfold Walk.openBrace
  dsimp only
  split_ifs <;> rfl

/-- A brace that closes gives up its own brace only, whether it was a loop or not. -/
theorem closeBrace (isLoop : Bool) :
    (resting (isLoop :: braces) parens none).step (.mark '}') = resting braces parens none := rfl

/-- A word opens nothing. -/
theorem depth_step_word (c : Control) (afterPoint : Bool) (name : Text) :
    (c.step (.word afterPoint name)).depth = c.depth :=
  Walk.depth_readWord c.walk afterPoint name

/-- A blank changes nothing. -/
theorem step_blank (c : Control) {m : Char} (hm : isBlank m = true) : c.step (.mark m) = c := by
  have hne {d : Char} (hd : isBlank d = false) : m ≠ d := by
    rintro rfl
    rw [hm] at hd
    cases hd
  unfold step Walk.readMark
  simp only [hne (d := '(') (by decide), hne (d := ')') (by decide), hne (d := '{') (by decide),
    hne (d := '}') (by decide), hne (d := '+') (by decide), hm, if_true, if_false]
  split <;> rfl

end Control

/-! ## Words and phrases -/

/-- The words that begin a loop. -/
def loopWords : List Text := ["for", "while", "do"].map String.toList

/-- Whether a token is a word that begins a loop. -/
def Token.isLoopWord : Token → Bool
  | word _ name => loopWords.contains name
  | mark _ => false

/-- No word has begun that goes on behind a text; numbers alone do not begin one. -/
def OutsideWord (t : Text) : Prop := ∀ c ∈ t.reverse.takeWhile isNameChar, beginsWord c = false

/-- A word stands in a text: it begins where none has begun, and no name character follows. -/
def HasWord (word t : Text) : Prop :=
  ∃ before after, t = before ++ (word ++ after) ∧ OutsideWord before ∧
    ∀ c ∈ after.head?, isNameChar c = false

/-- Number of parentheses that are open behind a text, if none is closed that is not open. -/
def parensAfter (opened : Nat) : Text → Option Nat
  | [] => some opened
  | c :: rest =>
      if c = '(' then parensAfter (opened + 1) rest
      else if c = ')' then
        if opened = 0 then none else parensAfter (opened - 1) rest
      else parensAfter opened rest

/-- A piece of code with balanced parentheses, without braces and without the words of loops. -/
structure Phrase where
  text : Text
  balanced : parensAfter 0 text = some 0
  braceless : ∀ c ∈ text, c ≠ '{' ∧ c ≠ '}'
  loopless : ∀ word ∈ loopWords, ¬ HasWord word text

/-- A phrase in which the words of loops do not occur, not even as parts of names. -/
def Phrase.ofText (t : Text) (balanced : parensAfter 0 t = some 0)
    (braceless : ∀ c ∈ t, c ≠ '{' ∧ c ≠ '}') (absent : ∀ word ∈ loopWords, ¬ word <:+: t) :
    Phrase where
  text := t
  balanced := balanced
  braceless := braceless
  loopless := by
    rintro word hword ⟨before, after, rfl, -, -⟩
    exact absent word hword ⟨before, after, List.append_assoc before word after⟩

/-- Blanks between tokens, or nothing. -/
structure Gap where
  text : Text
  blank : Text.allBlank text = true

/-- Behind a character that begins no word one is outside of words, if one was before or the
character parts them. -/
theorem outsideWord_snoc {t : Text} {c : Char} (hc : beginsWord c = false)
    (ht : OutsideWord t ∨ isNameChar c = false) : OutsideWord (t ++ [c]) := by
  intro d hd
  rw [List.reverse_append, List.reverse_singleton, List.singleton_append,
    List.takeWhile_cons] at hd
  split at hd
  next hname =>
    rcases List.mem_cons.1 hd with rfl | hd
    · exact hc
    · rcases ht with ht | hnot
      · exact ht d hd
      · rw [hname] at hnot
        cases hnot
  next => cases hd

/-- The words among the tokens stand in the text, of which a part has been seen already. -/
theorem hasWord_of_mem_tokensFrom {afterPoint : Bool} {name lead seen t : Text}
    {before : Option Char} {current : Option (Bool × Text)} (hseen : seen = lead ++ wordText current)
    (hlead : OutsideWord lead) (h : .word afterPoint name ∈ tokensFrom before current t) :
    HasWord name (seen ++ t) := by
  induction t generalizing lead seen before current with
  | nil =>
      cases current with
      | none => cases h
      | some word =>
          obtain ⟨-, rfl⟩ := Token.word.inj (List.mem_singleton.1 h)
          exact ⟨lead, [], by simp [hseen, wordText], hlead, by simp⟩
  | cons c t ih =>
      rw [← List.singleton_append, ← List.append_assoc]
      cases current with
      | none =>
          have hseen' : seen = lead := by rw [hseen, wordText, List.append_nil]
          rw [tokensFrom] at h
          split at h
          next hbegins => exact ih (by rw [hseen']; rfl) hlead h
          next hbegins =>
            rcases List.mem_cons.1 h with heq | h
            · cases heq
            · refine ih (List.append_nil _).symm ?_ h
              exact outsideWord_snoc (Bool.of_not_eq_true hbegins) (.inl (hseen' ▸ hlead))
      | some word =>
          obtain ⟨afterPoint', word⟩ := word
          rw [tokensFrom] at h
          split at h
          next hname =>
            refine ih ?_ hlead h
            rw [hseen, List.append_assoc]
            simp [wordText]
          next hname =>
            have hnot : isNameChar c = false := Bool.of_not_eq_true hname
            rcases List.mem_cons.1 h with heq | h
            · obtain ⟨-, rfl⟩ := Token.word.inj heq
              refine ⟨lead, c :: t, by simp [hseen, wordText], hlead, fun d hd => ?_⟩
              obtain rfl : c = d := Option.some.inj hd
              exact hnot
            · rcases List.mem_cons.1 h with heq | h
              · cases heq
              · refine ih (List.append_nil _).symm ?_ h
                exact outsideWord_snoc (beginsWord_of_isNameChar hnot) (.inr hnot)

/-- None of the tokens of a phrase begins a loop. -/
theorem Phrase.isLoopWord_of_mem (phrase : Phrase) :
    ∀ token ∈ tokens phrase.text, token.isLoopWord = false := by
  intro token htoken
  cases token with
  | mark c => rfl
  | word afterPoint name =>
      have hseen : ([] : Text) = [] ++ wordText none := rfl
      have hword : HasWord name ([] ++ phrase.text) :=
        hasWord_of_mem_tokensFrom hseen (by simp [OutsideWord]) htoken
      by_contra hloop
      have hmem : name ∈ loopWords := by simpa [Token.isLoopWord] using hloop
      exact phrase.loopless name hmem hword

/-- A word has no parenthesis. -/
theorem parensAfter_word {name : Text} (hname : ∀ c ∈ name, isNameChar c = true) (opened : Nat)
    (rest : Text) : parensAfter opened (name ++ rest) = parensAfter opened rest := by
  induction name with
  | nil => rfl
  | cons c name ih =>
      obtain ⟨hc, hname⟩ := List.forall_mem_cons.1 hname
      have hopen : c ≠ '(' := by rintro rfl; revert hc; decide
      have hclose : c ≠ ')' := by rintro rfl; revert hc; decide
      rw [List.cons_append, parensAfter, if_neg hopen, if_neg hclose, ih hname]

namespace Control

variable (braces : List Bool) (header : Option Nat)

/-- A word that begins no loop leaves the control at rest. -/
theorem resting_word (parens : Nat) {afterPoint : Bool} {name : Text}
    (h : (Token.word afterPoint name).isLoopWord = false) :
    (resting braces parens header).step (.word afterPoint name) = resting braces parens header := by
  cases afterPoint with
  | true => rfl
  | false =>
      have hname : name ∉ loopWords := by simpa [Token.isLoopWord] using h
      simp only [loopWords, List.map_cons, List.map_nil, List.mem_cons, List.not_mem_nil, or_false,
        not_or] at hname
      obtain ⟨hfor, hwhile, hdo⟩ := hname
      unfold step Walk.readWord
      dsimp only
      rw [if_neg Bool.false_ne_true, if_neg (not_or.2 ⟨hfor, hwhile⟩), if_neg hdo]
      rfl

/-- So does a mark that is neither a brace nor a parenthesis. -/
theorem resting_mark (parens : Nat) {m : Char} (hbrace : m ≠ '{' ∧ m ≠ '}') (hopen : m ≠ '(')
    (hclose : m ≠ ')') :
    (resting braces parens header).step (.mark m) = resting braces parens header := by
  cases header <;> unfold step Walk.readMark Walk.readPlus Walk.settle <;> dsimp only <;>
    split_ifs <;> first | rfl | simp_all

/-- The parenthesis that closes a header is outside those that the header holds. -/
theorem resting_mark_parens {opened closed parens : Nat} (hheader : ∀ j ∈ header, j < parens)
    {m : Char} (hbrace : m ≠ '{' ∧ m ≠ '}') {rest : Text}
    (hclosed : parensAfter opened (m :: rest) = some closed) :
    ∃ opened', (resting braces (parens + opened) header).step (.mark m) =
      resting braces (parens + opened') header ∧ parensAfter opened' rest = some closed := by
  rw [parensAfter] at hclosed
  split_ifs at hclosed with hopen hclose hzero
  · subst hopen
    refine ⟨opened + 1, ?_, hclosed⟩
    cases header <;> rfl
  · subst hclose
    refine ⟨opened - 1, ?_, hclosed⟩
    obtain ⟨opened, rfl⟩ := Nat.exists_eq_succ_of_ne_zero hzero
    have hne : header ≠ some (parens + opened) := by
      rintro rfl
      exact absurd (hheader _ rfl) (Nat.not_lt.2 (Nat.le_add_right _ _))
    simp [step, walk, resting, Walk.readMark, Walk.closeParen, Walk.control, ← Nat.add_assoc, hne]
  · exact ⟨opened, resting_mark braces header _ hbrace hopen hclose, hclosed⟩

/-- **What has balanced parentheses, no braces and no words of loops** leaves the control at
rest. -/
theorem resting_tokens {tokens : List Token} (hproper : ∀ token ∈ tokens, token.IsProper)
    (hbraceless : ∀ c ∈ tokens.flatMap Token.text, c ≠ '{' ∧ c ≠ '}')
    (hloopless : ∀ token ∈ tokens, token.isLoopWord = false) {opened closed parens : Nat}
    (hclosed : parensAfter opened (tokens.flatMap Token.text) = some closed)
    (hheader : ∀ j ∈ header, j < parens) :
    (resting braces (parens + opened) header).trace tokens =
        flat (braces.count true) (tokens.flatMap Token.text) ∧
      (resting braces (parens + opened) header).after tokens =
        resting braces (parens + closed) header := by
  induction tokens generalizing opened with
  | nil =>
      obtain rfl : opened = closed := Option.some.inj hclosed
      exact ⟨rfl, rfl⟩
  | cons token tokens ih =>
      obtain ⟨htoken, hproper⟩ := List.forall_mem_cons.1 hproper
      obtain ⟨hloop, hloopless⟩ := List.forall_mem_cons.1 hloopless
      rw [List.flatMap_cons] at hbraceless hclosed ⊢
      obtain ⟨hbrace, hbraceless⟩ := List.forall_mem_append.1 hbraceless
      obtain ⟨opened', hstep, hclosed⟩ : ∃ opened',
          (resting braces (parens + opened) header).step token =
            resting braces (parens + opened') header ∧
          parensAfter opened' (tokens.flatMap Token.text) = some closed := by
        cases token with
        | word afterPoint name =>
            refine ⟨opened, resting_word braces header _ hloop, ?_⟩
            rwa [Token.text, parensAfter_word htoken.isNameChar] at hclosed
        | mark m =>
            exact resting_mark_parens braces header hheader (hbrace m List.mem_cons_self) hclosed
      obtain ⟨htrace, hafter⟩ := ih hproper hbraceless hloopless hclosed
      constructor
      · rw [trace, hstep, htrace, flat_append]
        rw [depth_resting, depth_resting, max_self]
        rfl
      · rw [← hafter, ← hstep]
        rfl

end Control

/-! ## Programs -/

/-- The keyword of a loop that begins with its header. -/
inductive LoopKeyword where
  | forLoop
  | whileLoop

/-- The keyword as it is written. -/
def LoopKeyword.text : LoopKeyword → Text
  | forLoop => "for".toList
  | whileLoop => "while".toList

mutual

/-- A statement, with the blanks between its tokens. -/
inductive Statement where
  /-- A simple statement, up to its semicolon. -/
  | simple (phrase : Phrase)
  /-- A block. -/
  | block (body : Program)
  /-- A branch with both its sides. -/
  | branch (gap₁ : Gap) (condition : Phrase) (gap₂ : Gap) (yes : Program) (gap₃ gap₄ : Gap)
      (no : Program)
  /-- A loop that begins with its header. -/
  | loop (keyword : LoopKeyword) (gap₁ : Gap) (header : Phrase) (gap₂ : Gap) (body : Program)
  /-- A loop that ends with its condition. -/
  | doWhile (gap₁ : Gap) (body : Program) (gap₂ gap₃ : Gap) (condition : Phrase) (gap₄ : Gap)
  /-- The declaration of a function; blanks part its keyword and its name. -/
  | declaration (gap₁ : Gap) (parted : gap₁.text ≠ []) (name : Phrase) (gap₂ : Gap)
      (parameters : Phrase) (gap₃ : Gap) (body : Program)
  /-- A call with a function as its argument. -/
  | call (callee : Phrase) (gap₁ gap₂ gap₃ : Gap) (parameters : Phrase) (gap₄ : Gap)
      (body : Program) (gap₅ gap₆ : Gap)

/-- Statements one after the other. -/
inductive Program where
  | nil (gap : Gap)
  | cons (gap : Gap) (first : Statement) (rest : Program)

end

/-- A phrase in parentheses. -/
def Phrase.inParens (phrase : Phrase) : Text := '(' :: (phrase.text ++ [')'])

/-- Characters in braces that lie at a depth themselves. -/
def braced (depth : Nat) (inner : List (Char × Nat)) : List (Char × Nat) :=
  ('{', depth) :: (inner ++ [('}', depth)])

mutual

/-- The characters of a statement that stands in so many loop bodies, each with the number of loop
bodies that it belongs to. -/
def Statement.points (depth : Nat) : Statement → List (Char × Nat)
  | .simple phrase => flat depth (phrase.text ++ [';'])
  | .block body => braced depth (body.points depth)
  | .branch gap₁ condition gap₂ yes gap₃ gap₄ no =>
      flat depth ("if".toList ++ gap₁.text ++ condition.inParens ++ gap₂.text) ++
        braced depth (yes.points depth) ++
          flat depth (gap₃.text ++ "else".toList ++ gap₄.text) ++ braced depth (no.points depth)
  | .loop keyword gap₁ header gap₂ body =>
      flat depth (keyword.text ++ gap₁.text ++ header.inParens ++ gap₂.text) ++
        braced (depth + 1) (body.points (depth + 1))
  | .doWhile gap₁ body gap₂ gap₃ condition gap₄ =>
      flat depth ("do".toList ++ gap₁.text) ++ braced (depth + 1) (body.points (depth + 1)) ++
        flat depth (gap₂.text ++ "while".toList ++ gap₃.text ++ condition.inParens ++
          gap₄.text ++ [';'])
  | .declaration gap₁ _ name gap₂ parameters gap₃ body =>
      flat depth ("function".toList ++ gap₁.text ++ name.text ++ gap₂.text ++
          parameters.inParens ++ gap₃.text) ++ braced depth (body.points depth)
  | .call callee gap₁ gap₂ gap₃ parameters gap₄ body gap₅ gap₆ =>
      flat depth (callee.text ++ gap₁.text ++ ['('] ++ gap₂.text ++ "function".toList ++
          gap₃.text ++ parameters.inParens ++ gap₄.text) ++ braced depth (body.points depth) ++
        flat depth (gap₅.text ++ [')'] ++ gap₆.text ++ [';'])

/-- The same for a program. -/
def Program.points (depth : Nat) : Program → List (Char × Nat)
  | .nil gap => flat depth gap.text
  | .cons gap first rest => flat depth gap.text ++ first.points depth ++ rest.points depth

end

/-- A program as it is written. -/
def Program.text (p : Program) : Text := (p.points 0).map Prod.fst

/-! ## Reading a program -/

/-- No word goes on with these characters. -/
def Opens (points : List (Char × Nat)) : Prop :=
  ∀ c ∈ (points.map Prod.fst).head?, isNameChar c = false

/-- No word begins in these characters or right behind a point at their end. -/
def Closes (points : List (Char × Nat)) : Prop :=
  ∀ c ∈ (points.map Prod.fst).getLast?, isNameChar c = false ∧ c ≠ '.'

/-- A gap is made of blanks. -/
theorem Gap.isBlank (gap : Gap) : ∀ c ∈ gap.text, isBlank c = true := List.all_eq_true.1 gap.blank

/-- Blanks before characters with which no word goes on are such characters, or nothing. -/
theorem Gap.opens (gap : Gap) (depth : Nat) {points : List (Char × Nat)} (h : Opens points) :
    Opens (flat depth gap.text ++ points) := by
  obtain ⟨text, hblank⟩ := gap
  cases text with
  | nil => exact h
  | cons c text => simpa [Opens, flat] using isNameChar_of_isBlank (Bool.and_eq_true_iff.1 hblank).1

/-- No word begins in blanks, and they have no point. -/
theorem Gap.closes (gap : Gap) (depth : Nat) : Closes (flat depth gap.text) := by
  intro c hc
  rw [map_fst_flat] at hc
  have hblank := gap.isBlank c (List.mem_of_getLast? hc)
  refine ⟨isNameChar_of_isBlank hblank, ?_⟩
  rintro rfl
  revert hblank
  decide

/-- Blanks that are there part words. -/
theorem Gap.opens_of_ne_nil (gap : Gap) (h : gap.text ≠ []) (depth : Nat)
    (points : List (Char × Nat)) : Opens (flat depth gap.text ++ points) := by
  obtain ⟨text, hblank⟩ := gap
  obtain ⟨c, text, rfl⟩ := List.exists_cons_of_ne_nil h
  simpa [Opens, flat] using isNameChar_of_isBlank (Bool.and_eq_true_iff.1 hblank).1

/-- A mark that is not a point closes what was read. -/
theorem closes_mark {c : Char} (hname : isNameChar c = false) (hpoint : c ≠ '.') (depth : Nat) :
    Closes (flat depth [c]) := by
  intro d hd
  obtain rfl : c = d := Option.some.inj hd
  exact ⟨hname, hpoint⟩

/-- A mark can follow any word. -/
theorem opens_cons {c : Char} (hc : isNameChar c = false) (depth : Nat)
    (points : List (Char × Nat)) : Opens ((c, depth) :: points) := by
  intro d hd
  obtain rfl : c = d := Option.some.inj hd
  exact hc

/-- A phrase in parentheses ends with a mark. -/
theorem Phrase.closes_inParens (phrase : Phrase) (depth : Nat) :
    Closes (flat depth phrase.inParens) := by
  have hclose : isNameChar ')' = false := by decide
  simpa [Closes, Phrase.inParens, List.getLast?_cons] using hclose

/-- So does whatever stands in braces. -/
theorem closes_braced (depth : Nat) (inner : List (Char × Nat)) : Closes (braced depth inner) := by
  have hbrace : isNameChar '}' = false := by decide
  simpa [Closes, braced, List.getLast?_cons] using hbrace

namespace Reads

variable {c c' c'' : Control} {points points' : List (Char × Nat)}

/-- What follows begins with a mark, so it is read by itself. -/
theorem append_opens (h : Reads c points c') (h' : Reads c' points' c'') (hopens : Opens points') :
    Reads c (points ++ points') c'' := h.append h' (.inl hopens)

/-- What was read ends with a mark, so the rest is read by itself. -/
theorem append_closes (h : Reads c points c') (hcloses : Closes points)
    (h' : Reads c' points' c'') : Reads c (points ++ points') c'' := h.append h' (.inr hcloses)

/-- A character at which the depth stays the same. -/
theorem mark_flat {m : Char} (hm : beginsWord m = false) (hstep : c.step (.mark m) = c')
    (hdepth : c'.depth = c.depth) : Reads c (flat c.depth [m]) c' := by
  have hmark := Reads.mark (c := c) hm
  rwa [hstep, hdepth, max_self] at hmark

/-- Blanks. -/
theorem gap (c : Control) (gap : Gap) : Reads c (flat c.depth gap.text) c := by
  obtain ⟨text, hblank⟩ := gap
  induction text with
  | nil => exact .nil c
  | cons m text ih =>
      obtain ⟨hm, htext⟩ := Bool.and_eq_true_iff.1 hblank
      have hbegins := beginsWord_of_isNameChar (isNameChar_of_isBlank hm)
      have hfirst : Reads c (flat c.depth [m]) c := .mark_flat hbegins (c.step_blank hm) rfl
      exact hfirst.append_closes (Gap.closes ⟨[m], by simp [Text.allBlank, hm]⟩ c.depth) (ih htext)

/-- Blanks may stand before anything. -/
theorem after_gap (g : Gap) (h : Reads c points c') : Reads c (flat c.depth g.text ++ points) c' :=
  (gap c g).append_closes (g.closes c.depth) h

/-- A word and what follows it. -/
theorem word_then {name : Text} (hname : tokens name = [.word false name])
    (h : Reads (c.step (.word false name)) points c') (hopens : Opens points) :
    Reads c (flat c.depth name ++ points) c' := by
  refine append_opens ⟨?_, ?_⟩ h hopens
  · rw [map_fst_flat, hname, Control.trace, Control.depth_step_word, max_self, Control.trace,
      List.append_nil]
    rfl
  · rw [map_fst_flat, hname]
    rfl

/-- A phrase leaves the control at rest. -/
theorem phrase (phrase : Phrase) (braces : List Bool) {parens : Nat} {header : Option Nat}
    (hheader : ∀ j ∈ header, j < parens) :
    Reads (.resting braces parens header) (flat (braces.count true) phrase.text)
      (.resting braces parens header) := by
  have htext := flatMap_text_tokens phrase.text
  obtain ⟨htrace, hafter⟩ := Control.resting_tokens braces header
    (isProper_of_mem_tokens (t := phrase.text)) (htext.symm ▸ phrase.braceless) phrase.isLoopWord_of_mem
    (htext.symm ▸ phrase.balanced) hheader
  rw [Nat.add_zero] at htrace hafter
  rw [htext] at htrace
  exact ⟨by rw [map_fst_flat]; exact htrace, by rw [map_fst_flat]; exact hafter⟩

open Control (resting seekingHeader seekingBody)

section

variable (braces : List Bool) (parens : Nat)

/-- A phrase between parentheses, of which the first has led to a state at rest. -/
theorem between_parens (p : Phrase) {header : Option Nat} (hheader : ∀ j ∈ header, j < parens + 1)
    (hdepth : c.depth = braces.count true) (hdepth' : c'.depth = braces.count true)
    (hopen : c.step (.mark '(') = resting braces (parens + 1) header)
    (hclose : (resting braces (parens + 1) header).step (.mark ')') = c') :
    Reads c (flat (braces.count true) p.inParens) c' := by
  have hparens : flat (braces.count true) p.inParens = flat (braces.count true) ['('] ++
      (flat (braces.count true) p.text ++ flat (braces.count true) [')']) := by
    rw [← flat_append, ← flat_append]
    rfl
  have hfirst : Reads c (flat (braces.count true) ['(']) (resting braces (parens + 1) header) :=
    hdepth ▸ mark_flat (by decide) hopen hdepth.symm
  have hlast : Reads (resting braces (parens + 1) header) (flat (braces.count true) [')']) c' :=
    mark_flat (by decide) hclose hdepth'
  have hinner := (phrase p braces hheader).append_opens hlast (opens_cons (by decide) _ _)
  rw [hparens]
  exact hfirst.append_closes (closes_mark (by decide) (by decide) _) hinner

/-- A phrase in parentheses, where no loop is meant, leaves the control at rest. -/
theorem inParens (p : Phrase) :
    Reads (resting braces parens none) (flat (braces.count true) p.inParens)
      (resting braces parens none) :=
  between_parens braces parens p (by simp) rfl rfl (Control.resting_open braces parens)
    (Control.resting_close braces parens)

/-- The header of a loop. -/
theorem header (p : Phrase) :
    Reads (seekingHeader braces parens) (flat (braces.count true) p.inParens)
      (seekingBody braces parens) :=
  between_parens braces parens p (by simp) rfl rfl (Control.seekingHeader_open braces parens)
    (Control.header_close braces parens)

/-- What is read between two braces. -/
theorem between_braces {isLoop : Bool} {inner : List (Char × Nat)}
    (hopen : c.step (.mark '{') = resting (isLoop :: braces) parens none)
    (hdepth : c.depth = braces.count true)
    (h : Reads (resting (isLoop :: braces) parens none) inner
      (resting (isLoop :: braces) parens none)) :
    Reads c (braced ((isLoop :: braces).count true) inner) (resting braces parens none) := by
  have hle : braces.count true ≤ (isLoop :: braces).count true := List.count_le_count_cons
  have hfirst : Reads c [('{', (isLoop :: braces).count true)]
      (resting (isLoop :: braces) parens none) := by
    have hmark := Reads.mark (c := c) (m := '{') (by decide)
    rwa [hopen, hdepth, Control.depth_resting, max_eq_right hle] at hmark
  have hlast : Reads (resting (isLoop :: braces) parens none) [('}', (isLoop :: braces).count true)]
      (resting braces parens none) := by
    have hmark := Reads.mark (c := resting (isLoop :: braces) parens none) (m := '}') (by decide)
    rwa [Control.closeBrace, Control.depth_resting, Control.depth_resting, max_eq_left hle] at hmark
  have hinner := h.append_opens hlast (opens_cons (by decide) _ _)
  exact hfirst.append_closes (closes_mark (by decide) (by decide) _) hinner

/-- A block is read at the depth that it stands at. -/
theorem block {inner : List (Char × Nat)}
    (h : Reads (resting (false :: braces) parens none) inner
      (resting (false :: braces) parens none)) :
    Reads (resting braces parens none) (braced (braces.count true) inner)
      (resting braces parens none) :=
  between_braces braces parens (Control.resting_brace braces parens) rfl h

/-- The body of a loop is read one deeper. -/
theorem body {inner : List (Char × Nat)}
    (h : Reads (resting (true :: braces) parens none) inner
      (resting (true :: braces) parens none)) :
    Reads (seekingBody braces parens) (braced (braces.count true + 1) inner)
      (resting braces parens none) := by
  rw [← List.count_cons_self]
  exact between_braces braces parens (Control.seekingBody_brace braces parens) rfl h

/-- A word that begins no loop. -/
theorem plain_then (name : Text) (hname : tokens name = [.word false name])
    (hplain : (Token.word false name).isLoopWord = false) {points : List (Char × Nat)}
    (h : Reads (resting braces parens none) points c') (hopens : Opens points) :
    Reads (resting braces parens none) (flat (braces.count true) name ++ points) c' := by
  refine word_then (c := resting braces parens none) hname ?_ hopens
  rwa [Control.resting_word braces none parens hplain]

/-- The keyword of a loop that begins with its header. -/
theorem loop_then (keyword : LoopKeyword) {points : List (Char × Nat)}
    (h : Reads (seekingHeader braces parens) points c') (hopens : Opens points) :
    Reads (resting braces parens none) (flat (braces.count true) keyword.text ++ points) c' := by
  cases keyword with
  | forLoop => exact word_then (c := resting braces parens none) (by decide) h hopens
  | whileLoop => exact word_then (c := resting braces parens none) (by decide) h hopens

/-- The keyword of a loop that ends with its condition. -/
theorem do_then {points : List (Char × Nat)} (h : Reads (seekingBody braces parens) points c')
    (hopens : Opens points) :
    Reads (resting braces parens none) (flat (braces.count true) "do".toList ++ points) c' :=
  word_then (c := resting braces parens none) (by decide) h hopens

/-- The semicolon at the end of a statement. -/
theorem semicolon (hdepth : c.depth = braces.count true)
    (hstep : c.step (.mark ';') = resting braces parens none) :
    Reads c (flat (braces.count true) [';']) (resting braces parens none) :=
  hdepth ▸ mark_flat (by decide) hstep hdepth.symm

end

end Reads

/-- A statement ends in a semicolon or a brace. -/
theorem Statement.closes (depth : Nat) (s : Statement) : Closes (s.points depth) := by
  intro c hc
  have hlast : c = ';' ∨ c = '}' := by
    cases s <;> simp [points, flat, braced, List.getLast?_cons] at hc <;> simp [← hc]
  rcases hlast with rfl | rfl <;> exact ⟨by decide, by decide⟩

mutual

/-- **A statement is read at the depths of its grammar**, and leaves the control as it was. -/
theorem Statement.reads (s : Statement) (braces : List Bool) (parens : Nat) :
    Reads (.resting braces parens none) (s.points (braces.count true))
      (.resting braces parens none) := by
  have hparens (p : Phrase) (points : List (Char × Nat)) :
      Opens (flat (braces.count true) p.inParens ++ points) := opens_cons (by decide) _ _
  have hsemicolon : Reads (.resting braces parens none) (flat (braces.count true) [';'])
      (.resting braces parens none) :=
    .semicolon braces parens rfl (Control.resting_semicolon braces parens)
  cases s with
  | simple phrase =>
      rw [Statement.points, flat_append]
      exact (Reads.phrase phrase braces (by simp)).append_opens hsemicolon
        (opens_cons (by decide) _ _)
  | block body => exact .block braces parens (body.reads (false :: braces) parens)
  | branch gap₁ condition gap₂ yes gap₃ gap₄ no =>
      simp only [Statement.points, flat_append, List.append_assoc]
      have hno := Reads.block braces parens (no.reads (false :: braces) parens)
      have helse := Reads.plain_then braces parens "else".toList (by decide) (by decide)
        (.after_gap gap₄ hno) (gap₄.opens _ (opens_cons (by decide) _ _))
      have hyes := (Reads.block braces parens (yes.reads (false :: braces) parens)).append_closes
        (closes_braced _ _) (.after_gap gap₃ helse)
      have hcondition := (Reads.inParens braces parens condition).append_closes
        (condition.closes_inParens _) (.after_gap gap₂ hyes)
      exact .plain_then braces parens _ (by decide) (by decide) (.after_gap gap₁ hcondition)
        (gap₁.opens _ (hparens condition _))
  | loop keyword gap₁ header gap₂ body =>
      simp only [Statement.points, flat_append, List.append_assoc]
      have hinner := body.reads (true :: braces) parens
      rw [List.count_cons_self] at hinner
      have hheader := (Reads.header braces parens header).append_closes
        (header.closes_inParens _) (.after_gap gap₂ (.body braces parens hinner))
      exact .loop_then braces parens keyword (.after_gap gap₁ hheader)
        (gap₁.opens _ (hparens header _))
  | doWhile gap₁ body gap₂ gap₃ condition gap₄ =>
      simp only [Statement.points, flat_append, List.append_assoc]
      have hinner := body.reads (true :: braces) parens
      rw [List.count_cons_self] at hinner
      -- The condition is read as a header, so a body is sought until the semicolon.
      have hend : Reads (.seekingBody braces parens) (flat (braces.count true) [';'])
          (.resting braces parens none) :=
        .semicolon braces parens rfl (Control.seekingBody_semicolon braces parens)
      have hcondition := (Reads.header braces parens condition).append_closes
        (condition.closes_inParens _) (.after_gap gap₄ hend)
      have hwhile := Reads.loop_then braces parens .whileLoop (.after_gap gap₃ hcondition)
        (gap₃.opens _ (hparens condition _))
      have hbody := (Reads.body braces parens hinner).append_closes (closes_braced _ _)
        (.after_gap gap₂ hwhile)
      exact .do_then braces parens (.after_gap gap₁ hbody)
        (gap₁.opens _ (opens_cons (by decide) _ _))
  | declaration gap₁ parted name gap₂ parameters gap₃ body =>
      simp only [Statement.points, flat_append, List.append_assoc]
      have hbody := Reads.block braces parens (body.reads (false :: braces) parens)
      have hparameters := (Reads.inParens braces parens parameters).append_closes
        (parameters.closes_inParens _) (.after_gap gap₃ hbody)
      have hname := (Reads.phrase name braces (by simp)).append_opens
        (.after_gap gap₂ hparameters) (gap₂.opens _ (hparens parameters _))
      exact .plain_then braces parens _ (by decide) (by decide) (.after_gap gap₁ hname)
        (gap₁.opens_of_ne_nil parted _ _)
  | call callee gap₁ gap₂ gap₃ parameters gap₄ body gap₅ gap₆ =>
      simp only [Statement.points, flat_append, List.append_assoc]
      have hclose : Reads (.resting braces (parens + 1) none) (flat (braces.count true) [')'])
          (.resting braces parens none) :=
        .mark_flat (by decide) (Control.resting_close braces parens) rfl
      have hopen : Reads (.resting braces parens none) (flat (braces.count true) ['('])
          (.resting braces (parens + 1) none) :=
        .mark_flat (by decide) (Control.resting_open braces parens) rfl
      have hend := hclose.append_closes (closes_mark (by decide) (by decide) _)
        (.after_gap gap₆ hsemicolon)
      have hbody := (Reads.block braces (parens + 1)
        (body.reads (false :: braces) (parens + 1))).append_closes (closes_braced _ _)
          (.after_gap gap₅ hend)
      have hparameters := (Reads.inParens braces (parens + 1) parameters).append_closes
        (parameters.closes_inParens _) (.after_gap gap₄ hbody)
      have hfunction := Reads.plain_then braces (parens + 1) "function".toList (by decide)
        (by decide) (.after_gap gap₃ hparameters) (gap₃.opens _ (hparens parameters _))
      have harguments := hopen.append_closes (closes_mark (by decide) (by decide) _)
        (.after_gap gap₂ hfunction)
      exact (Reads.phrase callee braces (by simp)).append_opens (.after_gap gap₁ harguments)
        (gap₁.opens _ (opens_cons (by decide) _ _))

/-- **A program is read at the depths of its grammar**, and leaves the control as it was. -/
theorem Program.reads (p : Program) (braces : List Bool) (parens : Nat) :
    Reads (.resting braces parens none) (p.points (braces.count true))
      (.resting braces parens none) := by
  cases p with
  | nil gap => exact .gap _ gap
  | cons gap first rest =>
      rw [Program.points, List.append_assoc]
      exact .after_gap gap ((first.reads braces parens).append_closes (first.closes _)
        (rest.reads braces parens))

end

/-- **The shape of a structured program** is what is measured of the depths that its grammar
gives. -/
theorem ofCode_text (p : Program) : ofCode p.text = measure (p.points 0) := by
  have hreads : Reads Walk.start.control (p.points 0) Walk.start.control := p.reads [] 0
  rw [ofCode_eq_measure, Program.text, hreads.trace]

/-- A call in the header of a loop, and in its body a call with a function that has a loop of its
own, ended by its condition. -/
def loopInCallInLoop : Program :=
  let nothing : Gap := ⟨[], rfl⟩
  let blank : Gap := ⟨[' '], by decide⟩
  let feed : Gap := ⟨['\n'], by decide⟩
  let adding : Statement := .simple (.ofText "s += 'a'".toList (by decide) (by decide) (by decide))
  let inner : Statement := .doWhile blank (.cons feed adding (.nil feed)) blank blank
    (.ofText "go(x)".toList (by decide) (by decide) (by decide)) nothing
  let call : Statement := .call (.ofText "each".toList (by decide) (by decide) (by decide)) nothing
    nothing blank (.ofText ['x'] (by decide) (by decide) (by decide)) blank
    (.cons feed inner (.nil feed)) nothing nothing
  let outer : Statement := .loop .forLoop blank
    (.ofText "i = n(0); i < 9; i++".toList (by decide) (by decide) (by decide)) blank
    (.cons feed call (.nil feed))
  .cons nothing outer (.nil nothing)

/-- The function between the two loops does not end the outer one: the depth is two, first reached
on the third line, and a text is added to on the fourth. -/
theorem ofCode_text_loopInCallInLoop :
    loopInCallInLoop.text = ("for (i = n(0); i < 9; i++) \x7b\neach(function (x) \x7b\n" ++
      "do \x7b\ns += 'a';\n\x7d while (go(x));\n\x7d);\n\x7d").toList ∧
    ofCode loopInCallInLoop.text = ⟨2, some 3, some 4⟩ :=
  ⟨by decide +kernel, (ofCode_text loopInCallInLoop).trans (by decide +kernel)⟩

end LoopShape

end Scriptwright
