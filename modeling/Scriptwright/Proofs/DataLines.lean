import Scriptwright.Proofs.DataCode
import Scriptwright.Proofs.KnownCalls

/-!
# The rules on lines of data

A script that holds nothing but data has lines of one kind: `Rules.assignment`, a
name or a member of a name, an equals sign, and data or a call with data as its
arguments.  Each side is judged by itself.

On the left (`Rules.throughout_target`) most patterns demand something that names
are not written with, or cannot begin where a name stands.  Five are delicate:
two need a member of a certain name, two a class with a blank behind the keyword,
and one goes on with the right side.  On the right (`Rules.throughout_value`)
everything is decided by the alphabet of data.

So **no rule but the one against the debugger** has a match in such a line
(`Rules.inLine_assignment`), and no free call but of two constructors stands in it
(`Rules.knownAt_assignment`).  The rule against the debugger takes a dollar sign
for a word boundary: **it matches exactly if `debugger` is a part of the name
between dollar signs** (`Rules.debugger_assignment`).  Lines of which this much is
known can be put below each other (`Rules.SparedLines.append`).
-/

namespace Scriptwright

namespace Rules

/-- The pattern of the rule against debugger statements. -/
def debuggerPattern : Pattern := [.wordEdge, .word "debugger", .wordEdge]

/-- The rule against debugger statements, the last of those for dangerous code. -/
def debuggerRule : Rule :=
  ⟨.error, .compatibility, [debuggerPattern], "debugger statements halt the interpreter".toList⟩

/-- The patterns of all rules whose findings are errors, but for that one. -/
def patterns : List Pattern :=
  (dangerous.dropLast ++ dialect ++ [objectReturn]).flatMap (·.patterns)

/-- An assignment to a member through which documents are written. -/
def sink (member : String) : Pattern := [.word member, .blanks, .char '=']

/-- The patterns that names and members can begin to match. -/
def delicate : List Pattern := [
  sink ".innerHTML", sink ".outerHTML", .textStart :: classHead, .one endsBeforeClass :: classHead,
  .one endsBeforeAssignment :: .char '=' :: shorthand]

/-- Whether a pattern cannot match in names and members, up to an equals sign. -/
def sparesNames (pattern : Pattern) : Bool :=
  (pattern.body.isForeign .member && !pattern.body.admits '=') ||
    Alphabet.member.letters.all fun c => pattern.shuns c

/-- All patterns but the delicate ones spare names and members. -/
theorem sparesNames_or_mem_delicate {pattern : Pattern} (h : pattern ∈ patterns) :
    sparesNames pattern = true ∨ pattern ∈ delicate := by
  have hsplit : patterns = patterns.take 4 ++ (delicate.take 2 ++ ((patterns.drop 6).take 8 ++
      (delicate.drop 2 ++ patterns.drop 17))) := rfl
  have hspares : (patterns.take 4 ++ (patterns.drop 6).take 8 ++ patterns.drop 17).all
      sparesNames = true := by decide +kernel
  rw [List.all_eq_true] at hspares
  rw [hsplit] at h
  simp only [List.mem_append] at h hspares
  rcases h with h | h | h | h | h
  · exact .inl (hspares _ (.inl (.inl h)))
  · exact .inr (List.mem_of_mem_take h)
  · exact .inl (hspares _ (.inl (.inr h)))
  · exact .inr (List.mem_of_mem_drop h)
  · exact .inl (hspares _ (.inr h))

/-- Before an equals sign the head of a class would need its name behind the first blank, where the
sign stands. -/
theorem classHead_misses {v : Text} (hv : ∀ c ∈ v, isBlank c = false) (before rest : Text) :
    classHead.Misses ⟨before, v ++ ' ' :: '=' :: rest⟩ := by
  rw [Pattern.Misses, Option.eq_none_iff_forall_ne_some]
  intro q hq
  obtain ⟨p₁, hword, hq⟩ := Option.bind_eq_some_iff.1 hq
  obtain ⟨p₂, hblank, hq⟩ := Option.bind_eq_some_iff.1 hq
  obtain ⟨p₃, hblanks, hq⟩ := Option.bind_eq_some_iff.1 hq
  obtain ⟨p₄, hname, -⟩ := Option.bind_eq_some_iff.1 hq
  obtain ⟨after, hafter, rfl⟩ := Option.map_eq_some_iff.1 hword
  have hsplit := Text.eq_append_of_dropFront? hafter
  obtain ⟨c, hc, hpassed⟩ := Place.skipOne?_eq_some_iff.1 hblank
  obtain ⟨before', after'⟩ := p₂
  obtain rfl : after = c :: after' := hpassed.after
  -- The first blank stands behind the word, before the equals sign.
  have hdrop {t more : Text} {d : Char} (ht : ∀ c ∈ t, isBlank c = false)
      (hd : isBlank d = true) : (t ++ d :: more).dropWhile (!isBlank ·) = d :: more := by
    rw [List.dropWhile_append_of_pos fun c hc => by simp [ht c hc]]
    simp [hd]
  have hkeyword : ∀ c ∈ "class".toList, isBlank c = false := by decide
  have hboth := congrArg (List.dropWhile (!isBlank ·)) hsplit
  rw [hdrop hv (by decide), hdrop hkeyword hc] at hboth
  obtain ⟨-, rfl⟩ := List.cons.inj hboth
  obtain rfl := Option.some.inj hblanks
  cases hname

/-! ## Names and members that are assigned to -/

/-- What a line of data assigns to: a name, or a member of a name. -/
structure IsTarget (word : Text) : Prop where
  spells : Alphabet.member.Spells word
  unbroken : ∀ c ∈ word, isBlank c = false
  harmless : ∀ member ∈ [".innerHTML", ".outerHTML"], ∀ before rest,
    Throughout (sink member).Misses before word rest

/-- What stands before it on its line. -/
def leads : List Text := ["  var ".toList, "  ".toList]

/-- With what stands before it on its line and the blank behind it, a target belongs to the alphabet
of members. -/
theorem IsTarget.spells_side {word lead : Text} (hword : IsTarget word) (hlead : lead ∈ leads) :
    Alphabet.member.Spells (lead ++ word ++ [' ']) := by
  have hlast : ∀ lead ∈ leads, Alphabet.member.Spells lead ∧ lead.getLast? = some ' ' := by decide
  obtain ⟨hspells, hblank⟩ := hlast lead hlead
  have hfront : Alphabet.member.Spells (lead ++ word) := by
    refine hspells.append hword.spells fun c hc d _ => ?_
    rw [hblank] at hc
    obtain rfl : ' ' = c := Option.some.inj hc
    rfl
  refine hfront.append (by decide) fun c _ d hd => ?_
  obtain rfl : ' ' = d := by simpa using hd
  simp [Alphabet.member]

/-- **The rules on the left side of an assignment**, if the right side refuses the shorthand. -/
theorem throughout_target {word lead : Text} (hword : IsTarget word) (hlead : lead ∈ leads)
    {value rest : Text} (hvalue : Scan.RefusesShorthand value) {before : Text}
    (hbefore : before ≠ []) : ∀ pattern ∈ patterns,
      Throughout pattern.Misses before (lead ++ word ++ [' ']) ('=' :: (value ++ ';' :: rest)) := by
  have hletters := (hword.spells_side hlead).letters
  have hshuns {pattern : Pattern} (h : ∀ lead ∈ leads, ∀ c ∈ lead, pattern.shuns c = true)
      (before rest : Text) : Throughout pattern.Misses before lead rest :=
    Pattern.throughout_of_shuns (h lead hlead) before rest
  have hone {pattern : Pattern} {c : Char} (h : pattern.shuns c = true) (before rest : Text) :
      Throughout pattern.Misses before [c] rest :=
    Pattern.throughout_of_shuns (fun d hd => by rwa [List.mem_singleton.1 hd]) before rest
  have hsink {member : String} (hmember : member ∈ [".innerHTML", ".outerHTML"]) (rest : Text) :
      Throughout (sink member).Misses before (lead ++ word ++ [' ']) rest := by
    have hpoint : ∀ member ∈ [".innerHTML", ".outerHTML"],
        (∀ lead ∈ leads, ∀ c ∈ lead, (sink member).shuns c = true) ∧
          (sink member).shuns ' ' = true := by decide
    obtain ⟨hlead', hblank⟩ := hpoint member hmember
    rw [throughout_append, throughout_append]
    exact ⟨⟨hshuns hlead' _ _, hword.harmless member hmember _ _⟩, hone hblank _ _⟩
  intro pattern hpattern
  rcases sparesNames_or_mem_delicate hpattern with hspares | hdelicate
  · rw [sparesNames, Bool.or_eq_true, Bool.and_eq_true] at hspares
    rcases hspares with ⟨hforeign, hequals⟩ | hall
    · refine Pattern.throughout_of_isForeign hforeign (hword.spells_side hlead) (fun c hc => ?_) _
      obtain rfl : '=' = c := by simpa using hc
      simpa using hequals
    · refine Pattern.throughout_of_shuns (fun c hc => ?_) _ _
      exact List.all_eq_true.1 hall c (hletters c hc)
  · simp only [delicate, List.mem_cons, List.not_mem_nil, or_false] at hdelicate
    rcases hdelicate with rfl | rfl | rfl | rfl | rfl
    · exact hsink (by simp) _
    · exact hsink (by simp) _
    · intro u v _ _
      have hempty : (u.reverse ++ before).isEmpty = false := by simp [hbefore]
      rw [Pattern.Misses, Pattern.match?, Piece.match?]
      dsimp only
      rw [hempty]
      rfl
    · refine Pattern.throughout_one ?_
      rw [throughout_append, throughout_append, throughout_append]
      refine ⟨⟨⟨hshuns (by decide) _ _, fun u v huv _ => ?_⟩, hone (by decide) _ _⟩,
        hone (by decide) _ _⟩
      refine classHead_misses (fun c hc => hword.unbroken c ?_) _ _
      rw [huv]
      exact List.mem_append_right u hc
    · have hequals : ∀ c ∈ Alphabet.member.letters,
          Pattern.shuns c (.char '=' :: shorthand) = true := by decide
      refine Pattern.throughout_one ?_
      rw [throughout_append]
      refine ⟨Pattern.throughout_of_shuns (fun c hc => hequals c (hletters c hc)) _ _, ?_⟩
      rw [throughout_cons]
      exact ⟨Pattern.misses_one (hvalue _ rest rfl), throughout_nil⟩

/-- The member that the frame sets. -/
def setting : Text := ".includeStandardAdditions".toList

/-- The characters of names are letters of members, and none is a point. -/
theorem mem_member_of_extendsName {c : Char} (h : extendsName c = true) :
    c ∈ Alphabet.member.letters ∧ c ≠ '.' :=
  ⟨List.mem_cons_of_mem _ (Alphabet.mem_nameLetters h), by rintro rfl; cases h⟩

/-- No character of a name is a blank. -/
theorem isBlank_of_extendsName {c : Char} (h : extendsName c = true) : isBlank c = false := by
  have hcodes : ∀ n < 128, extendsName (Char.ofNat n) = true → isBlank (Char.ofNat n) = false := by
    decide +kernel
  exact Alphabet.of_extendsName (P := fun c => isBlank c = false) hcodes h

/-- Without a point in the text no member begins in it. -/
theorem throughout_sink {member : String} (hmember : member ∈ [".innerHTML", ".outerHTML"])
    {t : Text} (ht : ∀ c ∈ t, c ≠ '.') (before rest : Text) :
    Throughout (sink member).Misses before t rest := by
  have hshuns {c : Char} (hc : c ≠ '.') : (sink member).shuns c = true := by
    simp only [List.mem_cons, List.not_mem_nil, or_false] at hmember
    rcases hmember with rfl | rfl <;> simp [sink, Piece.word, Pattern.shuns, Ne.symm hc]
  exact Pattern.throughout_of_shuns (fun c hc => hshuns (ht c hc)) before rest

/-- Names are assigned to. -/
theorem isTarget_name {name : Text} (h : isIdentifier name = true) : IsTarget name := by
  have hextends := Alphabet.extendsName_of_isIdentifier h
  refine ⟨Alphabet.spells_of_forall fun c hc => ?_, fun c hc => ?_, fun member hmember => ?_⟩
  · obtain ⟨hletter, hpoint⟩ := mem_member_of_extendsName (hextends c hc)
    exact ⟨hletter, fun d => by simp [Alphabet.member, hpoint]⟩
  · exact isBlank_of_extendsName (hextends c hc)
  · exact throughout_sink hmember fun c hc => (mem_member_of_extendsName (hextends c hc)).2

/-- The setting of the handle is assigned to. -/
theorem isTarget_setting {handle : Text} (h : isIdentifier handle = true) :
    IsTarget (handle ++ setting) := by
  have hhandle := isTarget_name h
  have hextends := Alphabet.extendsName_of_isIdentifier h
  have hsetting : Alphabet.member.Spells setting ∧ ∀ c ∈ setting, isBlank c = false := by
    decide +kernel
  refine ⟨hhandle.spells.append hsetting.1 fun c hc d _ => ?_, fun c hc => ?_,
    fun member hmember before rest => ?_⟩
  · have hpoint := (mem_member_of_extendsName (hextends c (List.mem_of_mem_getLast? hc))).2
    simp [Alphabet.member, hpoint]
  · rcases List.mem_append.1 hc with hc | hc
    · exact hhandle.unbroken c hc
    · exact hsetting.2 c hc
  · have hlater : ∀ c ∈ setting.tail, c ≠ '.' := by decide
    have hsplit : setting = '.' :: setting.tail := rfl
    rw [throughout_append, hsplit, throughout_cons]
    refine ⟨hhandle.harmless member hmember _ _, ?_, throughout_sink hmember hlater _ _⟩
    simp only [List.mem_cons, List.not_mem_nil, or_false] at hmember
    rcases hmember with rfl | rfl <;> rfl

/-! ## The debugger in names -/

/-- Of the characters of names only the dollar sign is no word character. -/
theorem isWord_of_extendsName {c : Char} (h : extendsName c = true) : isWord c = (c != '$') := by
  have hcodes : ∀ n < 128, extendsName (Char.ofNat n) = true →
      isWord (Char.ofNat n) = (Char.ofNat n != '$') := by decide +kernel
  exact Alphabet.of_extendsName (P := fun c => isWord c = (c != '$')) hcodes h

/-- A part of a text between marks stands between marks or at the ends. -/
theorem mem_splitOn_iff {mark : Char} {part : Text} (hpart : mark ∉ part) {t : Text} :
    part ∈ t.splitOn mark ↔ ∃ front behind, t = front ++ part ++ behind ∧
      (∀ c ∈ front.getLast?, c = mark) ∧ ∀ c ∈ behind.head?, c = mark := by
  constructor
  · intro h
    induction hlen : t.length using Nat.strongRecOn generalizing t with
    | ind n ih =>
        by_cases hmark : mark ∈ t
        · obtain ⟨first, more, rfl, hfirst⟩ := List.eq_append_cons_of_mem hmark
          rw [List.splitOn_append_cons_self_of_not_mem hfirst] at h
          rcases List.mem_cons.1 h with rfl | h
          · exact ⟨[], mark :: more, rfl, by simp, by simp⟩
          · have hlt : more.length < n := by
              rw [← hlen, List.length_append, List.length_cons]
              omega
            obtain ⟨front, behind, rfl, hfront, hbehind⟩ := ih more.length hlt h rfl
            refine ⟨first ++ mark :: front, behind, by simp, fun c hc => ?_, hbehind⟩
            rw [List.getLast?_append_of_ne_nil _ (List.cons_ne_nil _ _), List.getLast?_cons] at hc
            cases hlast : front.getLast? with
            | none => simpa [hlast] using hc.symm
            | some e =>
                rw [hlast] at hc
                exact Option.some.inj hc ▸ hfront e hlast
        · rw [List.splitOn_eq_singleton hmark, List.mem_singleton] at h
          exact ⟨[], [], by simp [h], by simp, by simp⟩
  · rintro ⟨front, behind, rfl, hfront, hbehind⟩
    have hlast : part ∈ (part ++ behind).splitOn mark := by
      cases behind with
      | nil => simp [List.splitOn_eq_singleton hpart]
      | cons c behind =>
          obtain rfl := hbehind c rfl
          simp [List.splitOn_append_cons_self_of_not_mem hpart]
    rcases List.eq_nil_or_concat front with rfl | ⟨front, c, rfl⟩
    · exact hlast
    · obtain rfl := hfront c (by simp)
      have hsplit : front.concat c ++ part ++ behind = front ++ c :: (part ++ behind) := by simp
      rw [hsplit, List.splitOn_append_cons_self]
      exact List.mem_append_right _ hlast

/-- Where the rule against the debugger does not match: the word does not stand there, or it is not
a whole word. -/
theorem misses_debugger_iff {before after : Text} :
    debuggerPattern.Misses ⟨before, after⟩ ↔ ∀ behind, after = "debugger".toList ++ behind →
      ¬ (before.head?.any isWord = false ∧ behind.head?.any isWord = false) := by
  have hfirst : isWord 'd' = true := by decide +kernel
  have hlast : isWord 'r' = true := by decide +kernel
  have hopens (behind : Text) : Place.isWordEdge ⟨before, "debugger".toList ++ behind⟩ =
      !before.head?.any isWord := by
    have hhead : ("debugger".toList ++ behind).head?.any isWord = true := hfirst
    rw [Place.isWordEdge, hhead, Bool.bne_true]
  have hcloses (behind : Text) : Place.isWordEdge ⟨"debugger".toList.reverse ++ before, behind⟩ =
      !behind.head?.any isWord := by
    have hhead : ("debugger".toList.reverse ++ before).head?.any isWord = true := hlast
    rw [Place.isWordEdge, hhead, Bool.true_bne]
  rw [Pattern.Misses]
  constructor
  · rintro h behind rfl ⟨hbefore, hbehind⟩
    rw [debuggerPattern, Pattern.match?, Piece.match?, hopens, hbefore, Bool.not_false, if_pos rfl,
      Option.bind_some, Pattern.match?, Piece.word, Piece.match?, Place.skipText?,
      Text.dropFront?_append, Option.map_some, Option.bind_some, Pattern.match?, Piece.match?,
      hcloses, hbehind, Bool.not_false, if_pos rfl] at h
    cases h
  · intro h
    rw [Option.eq_none_iff_forall_ne_some]
    intro q hq
    obtain ⟨p₁, hfront, hq⟩ := Option.bind_eq_some_iff.1 hq
    obtain ⟨hedge, rfl⟩ := Piece.match?_wordEdge_iff.1 hfront
    obtain ⟨p₂, hword, hq⟩ := Option.bind_eq_some_iff.1 hq
    obtain ⟨behind, hbehind, rfl⟩ := Option.map_eq_some_iff.1 hword
    obtain ⟨p₃, hback, -⟩ := Option.bind_eq_some_iff.1 hq
    have hafter : after = "debugger".toList ++ behind := Text.eq_append_of_dropFront? hbehind
    subst hafter
    have hedge' := (Piece.match?_wordEdge_iff.1 hback).1
    rw [hopens] at hedge
    rw [hcloses] at hedge'
    exact h behind rfl ⟨by simpa using hedge, by simpa using hedge'⟩

/-- **In a name a word boundary is a dollar sign.** -/
theorem any_isWord_head?_iff {t rest : Text} (ht : ∀ c ∈ t, extendsName c = true)
    (hrest : rest.head?.any isWord = false) :
    (t ++ rest).head?.any isWord = false ↔ ∀ c ∈ t.head?, c = '$' := by
  cases t with
  | nil => simpa using hrest
  | cons c t => simp [isWord_of_extendsName (ht c List.mem_cons_self)]

/-- **The rule against the debugger in a name** between characters that are no letters. -/
theorem throughout_debugger_iff {name : Text} (hname : isIdentifier name = true) {before : Text}
    (hbefore : before.head?.any isWord = false) {d : Char} (hd : isWord d = false) (rest : Text) :
    Throughout debuggerPattern.Misses before name (d :: rest) ↔
      "debugger".toList ∉ name.splitOn '$' := by
  have hextends := Alphabet.extendsName_of_isIdentifier hname
  have hword : ∀ c ∈ "debugger".toList, isWord c = true := by decide +kernel
  -- The edges of a part of the name are its ends or dollar signs.
  have hedges {front behind : Text} (hparts : name = front ++ "debugger".toList ++ behind) :
      ((front.reverse ++ before).head?.any isWord = false ↔ ∀ c ∈ front.getLast?, c = '$') ∧
        ((behind ++ d :: rest).head?.any isWord = false ↔ ∀ c ∈ behind.head?, c = '$') := by
    rw [← List.head?_reverse]
    constructor
    · refine any_isWord_head?_iff (fun c hc => hextends c ?_) hbefore
      simp [hparts, List.mem_reverse.1 hc]
    · refine any_isWord_head?_iff (fun c hc => hextends c ?_) hd
      simp [hparts, hc]
  rw [mem_splitOn_iff (by decide)]
  constructor
  · rintro h ⟨front, behind, hparts, hfront, hbehind⟩
    obtain ⟨hopens, hcloses⟩ := hedges hparts
    have hsplit : name = front ++ ("debugger".toList ++ behind) := by simpa using hparts
    exact misses_debugger_iff.1 (h front _ hsplit (by simp)) (behind ++ d :: rest)
      (List.append_assoc _ _ _) ⟨hopens.2 hfront, hcloses.2 hbehind⟩
  · intro h u v hsplit _
    rw [misses_debugger_iff]
    rintro after hall ⟨hopens, hcloses⟩
    obtain ⟨behind, rfl, rfl⟩ :
        ∃ behind, v = "debugger".toList ++ behind ∧ after = behind ++ d :: rest := by
      rcases List.append_eq_append_iff.1 hall with ⟨more, hkeyword, hmore⟩ | ⟨behind, hv, hafter⟩
      · cases more with
        | nil => exact ⟨[], by simpa using hkeyword.symm, hmore.symm⟩
        | cons c more =>
            obtain ⟨rfl, -⟩ := List.cons.inj hmore
            have hletter := hword d (hkeyword ▸ List.mem_append_right _ List.mem_cons_self)
            rw [hd] at hletter
            cases hletter
      · exact ⟨behind, hv, hafter⟩
    have hparts : name = u ++ "debugger".toList ++ behind := by simpa using hsplit
    obtain ⟨hopens', hcloses'⟩ := hedges hparts
    exact h ⟨u, behind, hparts, hopens'.1 hopens, hcloses'.1 hcloses⟩

/-! ## Values -/

/-- What is called with data as its arguments, behind the equals sign. -/
def callees : List Text := [" new RegExp(".toList, " Application(".toList]

/-- The names that are called there. -/
def dataCalls : List Text := ["RegExp".toList, "Application".toList]

/-- The code of what is assigned: data, or such a call. -/
inductive IsValueCode : Text → Prop where
  | data {u : Text} (h : Alphabet.data.Spells (' ' :: u)) : IsValueCode (' ' :: u)
  | call {callee u : Text} (hcallee : callee ∈ callees) (h : Alphabet.data.Spells ('"' :: u)) :
      IsValueCode (callee ++ '"' :: u)

/-- What is assigned begins with a blank. -/
theorem IsValueCode.head? {value : Text} (h : IsValueCode value) : value.head? = some ' ' := by
  cases h with
  | data => rfl
  | call hcallee _ =>
      have hblank : ∀ callee ∈ callees, callee.head? = some ' ' := by decide
      rw [List.head?_append, hblank _ hcallee]
      rfl

/-- Whether a pattern cannot match in data that is assigned, nor where the line ends. -/
def sparesData (pattern : Pattern) : Bool :=
  pattern.isRefutedAlong [' '] [' '] ['='] && pattern.body.isForeign .data &&
    !pattern.body.admits ';' &&
    lineStarts.all fun c => Alphabet.data.letters.all fun d =>
      pattern.isRefutedAlong [c] [d] [';', '\n']

/-- **The right side of an assignment.**  What holds where a pattern does not match, and in the
calls, holds throughout. -/
theorem throughout_value {pattern : Pattern} (hpattern : sparesData pattern = true)
    {P : Place → Prop} (hP : ∀ p, pattern.Misses p → P p)
    (hcallee : ∀ callee ∈ callees, ∀ before rest, Throughout P ('=' :: before) callee ('"' :: rest))
    {value : Text} (hvalue : IsValueCode value) {before : Text} (hbefore : before.head? = some ' ')
    {c : Char} (hc : c ∈ lineStarts) (rest : Text) :
    Throughout P before ('=' :: (value ++ [';', '\n'])) (c :: rest) := by
  simp only [sparesData, Bool.and_eq_true, List.all_eq_true] at hpattern
  obtain ⟨⟨⟨hequals, hforeign⟩, hmark⟩, hend⟩ := hpattern
  have hdata {u : Text} (hu : Alphabet.data.Spells u) (hne : u ≠ []) (before : Text) :
      Throughout P before (u ++ [';', '\n']) (c :: rest) := by
    obtain ⟨front, d, rfl⟩ := (List.eq_nil_or_concat u).resolve_left hne
    have hd : d ∈ Alphabet.data.letters := hu.letters d (by simp)
    refine throughout_append.2 ⟨Throughout.imp ?_ hP, Throughout.imp ?_ hP⟩
    · refine Pattern.throughout_of_isForeign hforeign hu (fun e he => ?_) before
      obtain rfl : ';' = e := by simpa using he
      simpa using hmark
    · rw [List.concat_eq_append, List.reverse_concat]
      exact Pattern.throughout_of_isRefutedAlong (hend c hc d hd) (by simp) rest
  obtain ⟨farther, rfl⟩ := List.head?_eq_some_iff.1 hbefore
  rw [throughout_cons]
  constructor
  · obtain ⟨u, hu⟩ := List.head?_eq_some_iff.1 hvalue.head?
    have hplace : Throughout pattern.Misses (' ' :: farther) ['='] (' ' :: _) :=
      Pattern.throughout_of_isRefutedAlong hequals (by simp) (u ++ [';', '\n'] ++ c :: rest)
    rw [hu]
    exact hP _ (throughout_cons.1 hplace).1
  · cases hvalue with
    | data h => exact hdata h (List.cons_ne_nil _ _) _
    | call hmem h =>
        rw [List.append_assoc, throughout_append]
        exact ⟨hcallee _ hmem _ _, hdata h (List.cons_ne_nil _ _) _⟩

/-! ## Lines -/

/-- A line that assigns. -/
def assignment (lead word value : Text) : Text :=
  lead ++ word ++ [' '] ++ '=' :: (value ++ [';', '\n'])

section

variable {lead word value : Text}

/-- An assignment is a line: it begins with a blank and ends in a line feed. -/
theorem isLine_assignment (hlead : lead ∈ leads) : IsLine (assignment lead word value) where
  first := by
    have hblank : ∀ lead ∈ leads, lead.head? = some ' ' := by decide
    obtain ⟨more, rfl⟩ := List.head?_eq_some_iff.1 (hblank lead hlead)
    exact ⟨' ', _, rfl, by decide⟩
  last := by
    have hend : (lead ++ word ++ [' '] ++ '=' :: (value ++ [';'])) ++ ['\n'] =
        assignment lead word value := by simp [assignment]
    rw [← hend, List.getLast?_concat]

/-- The two sides of an assignment. -/
theorem throughout_assignment {P : Place → Prop} {before rest : Text} :
    Throughout P before (assignment lead word value) rest ↔
      Throughout P before (lead ++ word ++ [' ']) ('=' :: (value ++ ';' :: '\n' :: rest)) ∧
        Throughout P (' ' :: (word.reverse ++ (lead.reverse ++ before)))
          ('=' :: (value ++ [';', '\n'])) rest := by
  rw [assignment, throughout_append]
  simp

/-- All patterns spare data, those of calls and of the debugger included. -/
theorem sparesData_patterns :
    ∀ pattern ∈ Calls.callShape :: debuggerPattern :: patterns, sparesData pattern = true := by
  rw [← List.all_eq_true]
  decide +kernel

/-- Nothing matches in the names that are called with data. -/
theorem throughout_callee {pattern : Pattern} (hpattern : pattern ∈ debuggerPattern :: patterns)
    {callee : Text} (hcallee : callee ∈ callees) (before rest : Text) :
    Throughout pattern.Misses ('=' :: before) callee ('"' :: rest) := by
  have hrefuted : (debuggerPattern :: patterns).all fun pattern =>
      callees.all fun callee => pattern.isRefutedAlong ['"'] ['='] callee := by decide +kernel
  simp only [List.all_eq_true] at hrefuted
  exact Pattern.throughout_of_isRefutedAlong (hrefuted _ hpattern _ hcallee) (by simp) rest

/-- **No rule but the one against the debugger** matches in a line that assigns data. -/
theorem inLine_assignment (hword : IsTarget word) (hlead : lead ∈ leads)
    (hvalue : IsValueCode value) (hrefuses : Scan.RefusesShorthand value) :
    ∀ pattern ∈ patterns, InLine pattern.Misses (assignment lead word value) := by
  intro pattern hpattern before c rest hbefore hc
  have hne : before ≠ [] := by
    rintro rfl
    cases hbefore
  have hmem : pattern ∈ debuggerPattern :: patterns := List.mem_cons_of_mem _ hpattern
  exact throughout_assignment.2 ⟨throughout_target hword hlead hrefuses hne pattern hpattern,
    throughout_value (sparesData_patterns _ (List.mem_cons_of_mem _ hmem)) (fun _ hp => hp)
      (fun _ => throughout_callee hmem) hvalue rfl hc rest⟩

/-- Its free calls are of constructors. -/
theorem knownAt_assignment (hword : IsTarget word) (hlead : lead ∈ leads)
    (hvalue : IsValueCode value) :
    InLine (Calls.KnownAt dataCalls) (assignment lead word value) := by
  intro before c rest hbefore hc
  have hforeign : Calls.callShape.body.isForeign .member = true := by decide +kernel
  have hsettled : ∀ callee ∈ callees, Calls.isSettledAlong dataCalls
      ['"'] ['='] callee = true := by decide +kernel
  refine throughout_assignment.2 ⟨Throughout.imp ?_ fun p hp => Calls.knownAt_of_misses hp _,
    throughout_value (sparesData_patterns _ List.mem_cons_self)
      (fun p hp => Calls.knownAt_of_misses hp _) (fun callee hcallee before rest =>
        Calls.throughout_of_isSettledAlong (hsettled callee hcallee) (.inl (by simp)) rest)
      hvalue rfl hc rest⟩
  refine Pattern.throughout_of_isForeign hforeign (hword.spells_side hlead) (fun d hd => ?_) before
  obtain rfl : '=' = d := by simpa using hd
  decide

end

/-- **In such a line the rule against the debugger** matches exactly if that is a part of the name
between dollar signs. -/
theorem debugger_assignment {name lead value : Text} (hname : isIdentifier name = true)
    (hlead : lead ∈ leads) {member : Text} (hmember : member ∈ [[], setting])
    (hvalue : IsValueCode value) {c : Char} (hc : c ∈ lineStarts) (before rest : Text) :
    Throughout debuggerPattern.Misses before (assignment lead (name ++ member) value) (c :: rest) ↔
      "debugger".toList ∉ name.splitOn '$' := by
  have hlead' : ∀ lead ∈ leads, (∀ c ∈ lead, debuggerPattern.shuns c = true) ∧
      lead.getLast? = some ' ' := by decide
  obtain ⟨hshuns, hblank⟩ := hlead' lead hlead
  -- Whatever the name is, the rule does not match on either side of it.
  have hfront (rest : Text) : Throughout debuggerPattern.Misses before lead rest :=
    Pattern.throughout_of_shuns hshuns _ _
  have hbehind (before rest : Text) :
      Throughout debuggerPattern.Misses before (member ++ [' ']) rest := by
    have hspace : ∀ c ∈ [' '], debuggerPattern.shuns c = true := by decide
    simp only [List.mem_cons, List.not_mem_nil, or_false] at hmember
    rcases hmember with rfl | rfl
    · exact Pattern.throughout_of_shuns hspace _ _
    · have hrefuted : debuggerPattern.isRefutedAlong [] ['.'] (setting.tail ++ [' ']) = true := by
        decide +kernel
      have hpoint : debuggerPattern.shuns '.' = true := by decide
      have hsplit : setting ++ [' '] = '.' :: (setting.tail ++ [' ']) := rfl
      rw [hsplit, throughout_cons]
      exact ⟨Pattern.misses_of_shuns hpoint _ _,
        Pattern.throughout_of_isRefutedAlong hrefuted (by simp) rest⟩
  have hright (before : Text) : Throughout debuggerPattern.Misses (' ' :: before)
      ('=' :: (value ++ [';', '\n'])) (c :: rest) :=
    throughout_value (sparesData_patterns debuggerPattern (by simp)) (fun _ hp => hp)
      (fun _ => throughout_callee List.mem_cons_self) hvalue rfl hc rest
  have hside : lead ++ (name ++ member) ++ [' '] = lead ++ (name ++ (member ++ [' '])) := by simp
  rw [throughout_assignment, and_iff_left (hright _), hside, throughout_append, throughout_append,
    and_iff_right (hfront _), and_iff_left (hbehind _ _)]
  obtain ⟨d, more, hnext, hd⟩ : ∃ d more, isWord d = false ∧
      member ++ [' '] ++ '=' :: (value ++ ';' :: '\n' :: c :: rest) = d :: more := by
    simp only [List.mem_cons, List.not_mem_nil, or_false] at hmember
    rcases hmember with rfl | rfl
    · exact ⟨' ', _, by decide +kernel, rfl⟩
    · exact ⟨'.', _, by decide +kernel, rfl⟩
  rw [hd]
  refine throughout_debugger_iff hname ?_ hnext more
  have hspace : isWord ' ' = false := by decide +kernel
  rw [List.head?_append, List.head?_reverse, hblank]
  exact hspace

/-- A line that assigns data to a name or to its member. -/
structure IsDataLine (name t : Text) : Prop where
  line : IsLine t
  rules : ∀ pattern ∈ patterns, InLine pattern.Misses t
  calls : InLine (Calls.KnownAt dataCalls) t
  debugger : ∀ before c rest, c ∈ lineStarts →
    (Throughout debuggerPattern.Misses before t (c :: rest) ↔ "debugger".toList ∉ name.splitOn '$')

/-- An assignment of data to a name, or to its member, is a line of data. -/
theorem isDataLine_assignment {name lead value : Text} (hname : isIdentifier name = true)
    (hlead : lead ∈ leads) {member : Text} (hmember : member ∈ [[], setting])
    (hvalue : IsValueCode value) (hrefuses : Scan.RefusesShorthand value) :
    IsDataLine name (assignment lead (name ++ member) value) := by
  have htarget : IsTarget (name ++ member) := by
    simp only [List.mem_cons, List.not_mem_nil, or_false] at hmember
    rcases hmember with rfl | rfl
    · rw [List.append_nil]
      exact isTarget_name hname
    · exact isTarget_setting hname
  exact ⟨isLine_assignment hlead, inLine_assignment htarget hlead hvalue hrefuses,
    knownAt_assignment htarget hlead hvalue, fun before c rest hc =>
      debugger_assignment hname hlead hmember hvalue hc before rest⟩

/-- The line that declares a name. -/
theorem isDataLine_declaration {name value : Text} (hname : isIdentifier name = true)
    (hvalue : IsValueCode value) (hrefuses : Scan.RefusesShorthand value) :
    IsDataLine name (assignment "  var ".toList name value) := by
  have hlead : "  var ".toList ∈ leads := by decide
  have hnone : [] ∈ [[], setting] := List.mem_cons_self
  have hline := isDataLine_assignment hname hlead hnone hvalue hrefuses
  rwa [List.append_nil] at hline

/-! ## Many lines -/

/-- Lines in which no rule matches, but for the one against the debugger: it does exactly if that is
a part of one of some names.  Their free calls are of known names. -/
structure SparedLines (names known lines : List Text) : Prop where
  line : ∀ t ∈ lines, IsLine t
  rules : ∀ t ∈ lines, ∀ pattern ∈ patterns, InLine pattern.Misses t
  calls : ∀ t ∈ lines, InLine (Calls.KnownAt known) t
  steady : ∀ t ∈ lines, ∀ before c rest, c ∈ lineStarts →
    Throughout debuggerPattern.Misses before t (c :: rest) → InLine debuggerPattern.Misses t
  debugger : (∀ t ∈ lines, InLine debuggerPattern.Misses t) ↔
    ∀ name ∈ names, "debugger".toList ∉ name.splitOn '$'

/-- A line of data is spared, but for the debugger in its name. -/
theorem IsDataLine.sparedLines {name t : Text} (h : IsDataLine name t) :
    SparedLines [name] dataCalls [t] where
  line := by simpa using h.line
  rules := by simpa using h.rules
  calls := by simpa using h.calls
  steady := by
    intro u hu before c rest hc hmisses before' c' rest' _ hc'
    obtain rfl := List.mem_singleton.1 hu
    exact (h.debugger before' c' rest' hc').2 ((h.debugger before c rest hc).1 hmisses)
  debugger := by
    rw [List.forall_mem_singleton, List.forall_mem_singleton]
    constructor
    · intro hline
      exact (h.debugger ['\n'] ' ' [] (by decide)).1 (hline _ _ _ rfl (by decide))
    · intro hname before c rest _ hc
      exact (h.debugger before c rest hc).2 hname

namespace SparedLines

variable {names names' known known' lines lines' : List Text}

/-- There is nothing to spare where there are no lines. -/
theorem nil : SparedLines [] known [] where
  line := fun _ ht => absurd ht List.not_mem_nil
  rules := fun _ ht => absurd ht List.not_mem_nil
  calls := fun _ ht => absurd ht List.not_mem_nil
  steady := fun _ ht => absurd ht List.not_mem_nil
  debugger := ⟨fun _ _ h => absurd h List.not_mem_nil, fun _ _ h => absurd h List.not_mem_nil⟩

/-- Lines below lines. -/
theorem append (h : SparedLines names known lines) (h' : SparedLines names' known lines') :
    SparedLines (names ++ names') known (lines ++ lines') where
  line := List.forall_mem_append.2 ⟨h.line, h'.line⟩
  rules := List.forall_mem_append.2 ⟨h.rules, h'.rules⟩
  calls := List.forall_mem_append.2 ⟨h.calls, h'.calls⟩
  steady := List.forall_mem_append.2 ⟨h.steady, h'.steady⟩
  debugger := by rw [List.forall_mem_append, List.forall_mem_append, h.debugger, h'.debugger]

/-- More names may be known. -/
theorem mono (h : SparedLines names known lines) (hknown : known ⊆ known') :
    SparedLines names known' lines where
  line := h.line
  rules := h.rules
  calls := fun t ht before c rest hbefore hc =>
    (h.calls t ht before c rest hbefore hc).imp fun _ hp => hp.mono hknown
  steady := h.steady
  debugger := h.debugger

end SparedLines

end Rules

end Scriptwright
