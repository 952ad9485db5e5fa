import Scriptwright.Proofs.RuleReach

/-!
# Calls that are known or defined

A code is read for the names it calls and for the names it defines, each time from
left to right and without overlap.

What it calls is a matter of places: at a place stands no free call but of known
names (`Calls.KnownAt`), which for fixed code is computed from the code alone
(`Calls.isSettledAt`).

What it defines depends on more than the place, since an earlier match may cover a
definition (`exists_occurrence_covering`).  The declaration of a function is found
where a mark ends the statement before it (`Calls.mem_declared`).  Its parameters
are found where the last parenthesis before it is a closing one
(`Calls.mem_parameters`): a match that covers the keyword then reads the same
parameters.

Hence **no call is reported if every free call is of a name that is known or
defined** (`Calls.undefined_eq_nil`).
-/

namespace Scriptwright

open Place (Passed)

/-! ## Occurrences -/

section

variable {α : Type} {reader : Place → Option (α × Place)}

/-- An occurrence is a match at a place of the text. -/
theorem read_of_mem_occurrencesFrom {before t : Text} {skip : Nat} {p : Place} {found : α}
    (h : (p, found) ∈ occurrencesFrom reader skip before t) :
    (∃ u v, t = u ++ v ∧ v ≠ [] ∧ p = ⟨u.reverse ++ before, v⟩) ∧
      ∃ q, reader p = some (found, q) := by
  induction t generalizing skip before with
  | nil => cases h
  | cons c t ih =>
      have hlater {skip : Nat} (h : (p, found) ∈ occurrencesFrom reader skip (c :: before) t) :
          (∃ u v, c :: t = u ++ v ∧ v ≠ [] ∧ p = ⟨u.reverse ++ before, v⟩) ∧
            ∃ q, reader p = some (found, q) := by
        obtain ⟨⟨u, v, rfl, hne, rfl⟩, hread⟩ := ih h
        exact ⟨⟨c :: u, v, rfl, hne, by simp⟩, hread⟩
      cases skip with
      | succ skip => exact hlater h
      | zero =>
          rw [occurrencesFrom] at h
          split at h
          next found' q hread =>
            rcases List.mem_cons.1 h with heq | h
            · obtain ⟨rfl, rfl⟩ := Prod.mk.inj heq
              exact ⟨⟨[], c :: t, rfl, List.cons_ne_nil _ _, rfl⟩, q, hread⟩
            · exact hlater h
          next => exact hlater h

/-- **A match is an occurrence, or one that begins earlier reaches beyond its place.** -/
theorem exists_occurrence_covering
    (hadvances : ∀ p q found, reader p = some (found, q) →
      ∃ between, between ≠ [] ∧ Passed between p q)
    {before gap rest : Text} {match' : α × Place}
    (h : reader ⟨gap.reverse ++ before, rest⟩ = some match') :
    ∃ front back found q between, gap = front ++ back ∧
      (⟨front.reverse ++ before, back ++ rest⟩, found) ∈
        occurrencesAt reader ⟨before, gap ++ rest⟩ ∧
      reader ⟨front.reverse ++ before, back ++ rest⟩ = some (found, q) ∧
      Passed between ⟨front.reverse ++ before, back ++ rest⟩ q ∧ back.length < between.length := by
  induction hlen : gap.length using Nat.strongRecOn generalizing before gap with
  | ind n ih =>
      cases hread : reader ⟨before, gap ++ rest⟩ with
      | none =>
          cases gap with
          | nil =>
              rw [List.reverse_nil, List.nil_append] at h
              rw [List.nil_append, h] at hread
              cases hread
          | cons c gap =>
              rw [List.reverse_cons, List.append_assoc] at h
              obtain ⟨front, back, found, q, between, rfl, hmem, hfound, hpassed, hlt⟩ :=
                ih gap.length (by rw [← hlen]; exact Nat.lt_succ_self _) h rfl
              refine ⟨c :: front, back, found, q, between, rfl, ?_⟩
              have hnext : occurrencesAt reader ⟨before, c :: (front ++ back ++ rest)⟩ =
                  occurrencesAt reader ⟨c :: before, front ++ back ++ rest⟩ :=
                occurrencesAt_none hread
              rw [List.reverse_cons, List.append_assoc, List.cons_append, hnext]
              exact ⟨hmem, hfound, hpassed, hlt⟩
      | some first =>
          obtain ⟨found, q⟩ := first
          obtain ⟨between, hne, hpassed⟩ := hadvances _ _ _ hread
          rw [occurrencesAt_found hread hne hpassed]
          rcases Nat.lt_or_ge gap.length between.length with hlt | hle
          · exact ⟨[], gap, found, q, between, rfl, List.mem_cons_self, hread, hpassed, hlt⟩
          · obtain ⟨more, rfl, hafter⟩ :
                ∃ more, gap = between ++ more ∧ q.after = more ++ rest := by
              obtain ⟨more, hgap⟩ : between <+: gap :=
                List.prefix_of_prefix_length_le ⟨q.after, hpassed.after.symm⟩ ⟨rest, rfl⟩ hle
              refine ⟨more, hgap.symm, ?_⟩
              have hsplit := hpassed.after
              dsimp only at hsplit
              rw [← hgap, List.append_assoc] at hsplit
              exact (List.append_cancel_left hsplit).symm
            have hq : q = ⟨between.reverse ++ before, more ++ rest⟩ := by
              rw [← hafter, ← hpassed.before]
            rw [List.reverse_append, List.append_assoc] at h
            have hlt : more.length < n := by
              have hpositive := List.length_pos_of_ne_nil hne
              rw [← hlen, List.length_append]
              omega
            obtain ⟨front, back, found', q', between', rfl, hmem, hfound, hpassed', hlt'⟩ :=
              ih more.length hlt h rfl
            refine ⟨between ++ front, back, found', q', between', by rw [List.append_assoc], ?_⟩
            rw [List.reverse_append, List.append_assoc (List.reverse front), hq]
            exact ⟨List.mem_cons_of_mem _ hmem, hfound, hpassed', hlt'⟩

end

/-! ## What is called -/

/-- Patterns one after the other match one after the other. -/
theorem Pattern.match?_append (pattern more : Pattern) (p : Place) :
    match? (pattern ++ more) p = (match? pattern p).bind (match? more) := by
  induction pattern generalizing p with
  | nil => rfl
  | cons piece pattern ih =>
      rw [List.cons_append, match?, match?, Option.bind_assoc]
      exact congrArg _ (funext ih)

namespace Calls

/-- Reading a name between two patterns matches the pattern of both with a name between them. -/
theorem match?_of_readNamed {lead tail : Pattern} {p q : Place} {name : Text}
    (h : readNamed lead tail p = some (name, q)) :
    Pattern.match? (lead ++ Rules.nameThen tail) p = some q := by
  obtain ⟨p₁, hlead, h⟩ := Option.bind_eq_some_iff.1 h
  obtain ⟨⟨name', p₂⟩, hname, h⟩ := Option.bind_eq_some_iff.1 h
  obtain ⟨p₃, htail, heq⟩ := Option.map_eq_some_iff.1 h
  obtain ⟨rfl, rfl⟩ := Prod.mk.inj heq
  rw [Pattern.match?_append, hlead]
  obtain ⟨before, after⟩ := p₁
  cases after with
  | nil => cases hname
  | cons c after =>
      rw [takeName?] at hname
      dsimp only at hname
      split at hname
      next hopens =>
        obtain ⟨rfl, rfl⟩ := Prod.mk.inj (Option.some.inj hname)
        rw [Option.bind_some, Rules.nameThen, Pattern.match?, Piece.match?, Place.skipOne?]
        dsimp only
        rw [if_pos hopens]
        exact htail
      next => cases hname

/-- A name and a parenthesis. -/
def callShape : Pattern := Rules.nameThen [.blanks, .char '(']

/-- Without a name and a parenthesis no call is read. -/
theorem readCall_eq_none {p : Place} (h : callShape.Misses p) : readCall p = none := by
  rw [Option.eq_none_iff_forall_ne_some]
  rintro ⟨name, q⟩ hread
  have hmatch : callShape.match? p = some q := match?_of_readNamed hread
  rw [h] at hmatch
  cases hmatch

/-- At a place stands no free call, or one of these names. -/
def KnownAt (names : List Text) (p : Place) : Prop :=
  ∀ name q, readCall p = some (name, q) → isFreeAt p name = true → name ∈ names

/-- What is known stays so with more names. -/
theorem KnownAt.mono {names names' : List Text} {p : Place} (h : KnownAt names p)
    (hnames : names ⊆ names') : KnownAt names' p :=
  fun name q hread hfree => hnames (h name q hread hfree)

/-- Where no call is read nothing is called that is not known. -/
theorem knownAt_of_misses {p : Place} (h : callShape.Misses p) (names : List Text) :
    KnownAt names p := by
  intro name q hread
  rw [readCall_eq_none h] at hread
  cases hread

/-- Whether a name called behind this text is not free, whatever stands before the text. -/
def isBoundBehind (before name : Text) : Bool :=
  before.head?.any isNameChar || (before.dropWhile isBlank).head? == some '.' ||
    (match Text.dropFront? "function".toList.reverse (before.dropWhile isBlank) with
    | some (c :: _) => !isNameChar c
    | _ => false) || Symbols.isKeyword name

/-- What stands directly before a name makes it no free call, whatever stands farther before. -/
theorem isFreeAt_of_isBoundBehind {before name : Text} (h : isBoundBehind before name = true)
    (farther after : Text) : isFreeAt ⟨before ++ farther, after⟩ name = false := by
  have htrimmed (hne : before.dropWhile isBlank ≠ []) :=
    dropWhile_append_of_ne_nil hne farther
  simp only [isBoundBehind, Bool.or_eq_true, beq_iff_eq] at h
  rcases h with ((hname | hpoint) | hfunction) | hkeyword
  · have hhead : (before ++ farther).head?.any isNameChar = true := by
      cases before with
      | nil => cases hname
      | cons c before => exact hname
    simp only [isFreeAt, hhead, Bool.not_true, Bool.false_and]
  · have hne : before.dropWhile isBlank ≠ [] := by
      intro hnil
      rw [hnil] at hpoint
      cases hpoint
    have hhead : ((before ++ farther).dropWhile isBlank).head? = some '.' := by
      rw [htrimmed hne, List.head?_append_of_ne_nil _ hne, hpoint]
    simp [isFreeAt, hhead]
  · split at hfunction
    next c rest hdrop =>
      have hsplit := Text.eq_append_of_dropFront? hdrop
      have hne : before.dropWhile isBlank ≠ [] := by
        rw [hsplit]
        simp
      have hends : endsInFunction ((before ++ farther).dropWhile isBlank) = true := by
        rw [htrimmed hne, endsInFunction, Text.dropFront?_append_of_some hdrop]
        simpa using hfunction
      simp [isFreeAt, hends]
    next => cases hfunction
  · simp [isFreeAt, hkeyword]

/-- Whether no free call but of these names stands at a place, whatever stands on either side. -/
def isSettledAt (names : List Text) (p : Place) : Bool :=
  callShape.isRefutedAt p ||
    match readCall p with
    | some (name, _) => names.contains name || isBoundBehind p.before name
    | none => false

/-- A call that stands within a text stands in every longer text. -/
theorem readCall_extend {before after name : Text} {q : Place}
    (h : readCall ⟨before, after⟩ = some (name, q)) (farther rest : Text) :
    ∃ q', readCall ⟨before ++ farther, after ++ rest⟩ = some (name, q') := by
  cases after with
  | nil => cases h
  | cons c after =>
      obtain ⟨⟨name', p₂⟩, hname, h⟩ := Option.bind_eq_some_iff.1 h
      rw [takeName?] at hname
      dsimp only at hname
      split at hname
      next hopens =>
        obtain ⟨rfl, rfl⟩ := Prod.mk.inj (Option.some.inj hname)
        obtain ⟨p₃, htail, heq⟩ := Option.map_eq_some_iff.1 h
        obtain ⟨rfl, -⟩ := Prod.mk.inj heq
        obtain ⟨p₄, hrun, hparenthesis⟩ := Option.bind_eq_some_iff.1 htail
        obtain rfl := Option.some.inj hrun
        obtain ⟨p₅, hparenthesis, -⟩ := Option.bind_eq_some_iff.1 hparenthesis
        -- Behind the name and the blanks comes a parenthesis, so both end within the text.
        have hblanks : ((after.dropWhile extendsCallName).dropWhile isBlank).head? = some '(' := by
          rw [Piece.char, Piece.match?, Place.skipOne?] at hparenthesis
          simp only [Place.skipRun] at hparenthesis
          cases hbehind : (after.dropWhile extendsCallName).dropWhile isBlank with
          | nil =>
              rw [hbehind] at hparenthesis
              cases hparenthesis
          | cons d behind =>
              rw [hbehind] at hparenthesis
              dsimp only at hparenthesis
              split at hparenthesis
              next hd => rw [List.head?_cons, eq_of_beq hd]
              next => cases hparenthesis
        have hne : (after.dropWhile extendsCallName).dropWhile isBlank ≠ [] := by
          intro hnil
          rw [hnil] at hblanks
          cases hblanks
        have hne' : after.dropWhile extendsCallName ≠ [] := by
          intro hnil
          rw [hnil] at hne
          exact hne rfl
        rw [readCall, readNamed, Pattern.match?, Option.bind_some, List.cons_append, takeName?]
        dsimp only
        rw [if_pos hopens, takeWhile_append_of_ne_nil hne', Option.bind_some]
        obtain ⟨behind, hbehind⟩ := List.head?_eq_some_iff.1 hblanks
        have hafter : ((after ++ rest).dropWhile extendsCallName).dropWhile isBlank =
            '(' :: (behind ++ rest) := by
          rw [dropWhile_append_of_ne_nil hne', dropWhile_append_of_ne_nil hne, hbehind]
          rfl
        simp only [Pattern.match?, Piece.match?, Piece.blanks, Piece.char, Place.skipRun,
          Option.bind_some, Place.skipOne?, hafter, beq_self_eq_true, if_true, Option.map_some]
        exact ⟨_, rfl⟩
      next => cases hname

/-- **Where a call is settled** from what is known of the code, it is a known one, whatever else
stands there. -/
theorem knownAt_of_isSettledAt {names : List Text} {p : Place}
    (h : isSettledAt names p = true) {farther : Text} (hbefore : p.before ≠ [] ∨ farther = [])
    (rest : Text) : KnownAt names ⟨p.before ++ farther, p.after ++ rest⟩ := by
  rw [isSettledAt, Bool.or_eq_true] at h
  rcases h with hrefuted | hread
  · have hhead : (p.before ++ farther).head? = p.before.head? := by
      rcases hbefore with hne | rfl
      · exact List.head?_append_of_ne_nil _ hne
      · rw [List.append_nil]
    exact knownAt_of_misses (Pattern.misses_of_isRefutedAt hrefuted ⟨rfl, hhead⟩) names
  · split at hread
    next name q hown =>
      obtain ⟨q', hcall⟩ := readCall_extend hown farther rest
      intro name' q'' hcall' hfree
      rw [hcall] at hcall'
      obtain ⟨rfl, -⟩ := Prod.mk.inj (Option.some.inj hcall')
      rcases Bool.or_eq_true_iff.1 hread with hknown | hbound
      · exact List.contains_iff_mem.1 hknown
      · rw [isFreeAt_of_isBoundBehind hbound] at hfree
        cases hfree
    next => cases hread

/-- Whether that is so along a text, from what is known of the texts on either side. -/
def isSettledAlong (names : List Text) (behind before t : Text) : Bool :=
  (Place.along behind before t).all (isSettledAt names)

/-- Along a text in which all calls are settled, all free calls are known. -/
theorem throughout_of_isSettledAlong {names : List Text} {behind before t farther : Text}
    (h : isSettledAlong names behind before t = true) (hbefore : before ≠ [] ∨ farther = [])
    (rest : Text) : Throughout (KnownAt names) (before ++ farther) t (behind ++ rest) := by
  refine throughout_of_along farther rest fun p hp => ?_
  refine knownAt_of_isSettledAt (List.all_eq_true.1 h p hp) ?_ rest
  exact hbefore.imp_left fun hne => Place.before_ne_nil_of_mem_along hp hne

/-! ## What is defined -/

/-- The declaration of a function, up to its parenthesis. -/
def declarationShape : Pattern :=
  (.wordEdge :: .word "function" :: Pattern.someBlanks) ++ Rules.nameThen [.blanks, .char '(']

/-- **A declared function is found** behind a mark and blanks. -/
theorem mem_declared {front gap rest : Text} {mark : Char}
    (hmark : declarationShape.admits mark = false)
    (hgap : ∀ c ∈ gap, declarationShape.shuns c = true)
    {name : Text} {q : Place}
    (h : readDeclared ⟨(front ++ mark :: gap).reverse, rest⟩ = some (name, q)) :
    name ∈ (occurrences readDeclared (front ++ mark :: gap ++ rest)).map Prod.snd := by
  have hadvances : ∀ p q found, readDeclared p = some (found, q) →
      ∃ between, between ≠ [] ∧ Passed between p q := fun _ _ _ => readNamed_advances
  rw [← List.append_nil (front ++ mark :: gap).reverse] at h
  obtain ⟨before, back, found, q', between, hsplit, hmem, hfound, hpassed, hlt⟩ :=
    exists_occurrence_covering hadvances h
  have hmatch : declarationShape.match? ⟨before.reverse ++ [], back ++ rest⟩ = some q' :=
    match?_of_readNamed hfound
  -- What covers the place would pass the mark, or begin in the gap.
  have hback : back = [] := by
    obtain ⟨between', hpassed', hadmits, -⟩ := Pattern.takes_of_match? hmatch
    have hsame : between' = between := by
      have hboth := hpassed'.after.symm.trans hpassed.after
      exact List.append_cancel_right hboth
    obtain ⟨more, hmore⟩ : back <+: between :=
      List.prefix_of_prefix_length_le ⟨rest, rfl⟩ ⟨q'.after, hpassed.after.symm⟩ hlt.le
    have hfree : mark ∉ back := by
      intro hin
      have htaken := hadmits mark (by rw [hsame, ← hmore]; exact List.mem_append_left _ hin)
      rw [hmark] at htaken
      cases htaken
    have hsuffix : back <:+ gap := by
      have hall : back <:+ front ++ mark :: gap := ⟨before, hsplit.symm⟩
      rcases List.suffix_or_suffix_of_suffix hall (List.suffix_append _ _) with h | h
      · rcases List.suffix_cons_iff.1 h with rfl | h
        · exact absurd List.mem_cons_self hfree
        · exact h
      · exact absurd (h.subset List.mem_cons_self) hfree
    cases back with
    | nil => rfl
    | cons c back =>
        have hshuns := hgap c (hsuffix.subset List.mem_cons_self)
        rw [List.cons_append, Pattern.misses_of_shuns hshuns] at hmatch
        cases hmatch
  subst hback
  rw [List.append_nil] at hsplit
  subst hsplit
  rw [List.nil_append, h] at hfound
  obtain ⟨rfl, -⟩ := Prod.mk.inj (Option.some.inj hfound)
  exact List.mem_map.2 ⟨_, hmem, rfl⟩

/-- A run up to a mark, and the mark: the first that stands there. -/
theorem after_of_match?_runTo {mark : Char} {p q : Place}
    (h : Pattern.match? [.run (· != mark), .char mark] p = some q) :
    p.after = p.after.takeWhile (· != mark) ++ mark :: q.after := by
  obtain ⟨p₁, hrun, h⟩ := Option.bind_eq_some_iff.1 h
  obtain rfl := Option.some.inj hrun
  obtain ⟨p₂, hmark, h⟩ := Option.bind_eq_some_iff.1 h
  obtain rfl := Option.some.inj h
  have hboth := List.takeWhile_append_dropWhile (p := (· != mark)) (l := p.after)
  simp only [Piece.char, Piece.match?, Place.skipOne?, Place.skipRun] at hmark
  cases hbehind : p.after.dropWhile (· != mark) with
  | nil =>
      rw [hbehind] at hmark
      cases hmark
  | cons c rest =>
      rw [hbehind] at hmark hboth
      dsimp only at hmark
      split at hmark
      next hc =>
        obtain rfl := Option.some.inj hmark
        obtain rfl := eq_of_beq hc
        exact hboth.symm
      next => cases hmark

/-- A text without the mark is the run up to it. -/
theorem takeWhile_ne_append {mark : Char} {t : Text} (h : mark ∉ t) (rest : Text) :
    (t ++ mark :: rest).takeWhile (· != mark) = t ∧
      (t ++ mark :: rest).dropWhile (· != mark) = mark :: rest := by
  have hne : ∀ c ∈ t, (c != mark) = true := by
    intro c hc
    have hne : c ≠ mark := fun heq => h (heq ▸ hc)
    simpa using hne
  rw [List.takeWhile_append_of_pos hne, List.dropWhile_append_of_pos hne]
  simp

/-- Such a run is matched over a text without the mark. -/
theorem match?_runTo {mark : Char} {t : Text} (h : mark ∉ t) (before rest : Text) :
    Pattern.match? [.run (· != mark), .char mark] ⟨before, t ++ mark :: rest⟩ =
      some ⟨mark :: (t.reverse ++ before), rest⟩ := by
  obtain ⟨htake, hdrop⟩ := takeWhile_ne_append h rest
  simp [Pattern.match?, Piece.match?, Piece.char, Place.skipRun, Place.skipOne?, htake, hdrop]

/-- The mark is not in the run up to it. -/
theorem not_mem_takeWhile_ne {mark : Char} {t : Text} : mark ∉ t.takeWhile (· != mark) := by
  intro hmem
  have hne := List.mem_takeWhile_imp hmem
  simp at hne

/-- What a list of parameters is read from. -/
theorem split_of_readParameters {p q : Place} {parameters : Text}
    (h : readParameters p = some (parameters, q)) :
    ∃ lead, p.after = lead ++ '(' :: (parameters ++ ')' :: q.after) ∧ '(' ∉ lead ∧
      ')' ∉ parameters := by
  obtain ⟨p₂, hopen, h⟩ := Option.bind_eq_some_iff.1 h
  obtain ⟨p₃, hclose, heq⟩ := Option.map_eq_some_iff.1 h
  obtain ⟨rfl, rfl⟩ := Prod.mk.inj heq
  let keyword : Pattern := [.wordEdge, .word "function", .wordEdge]
  have hsplit :
      (keyword.match? p).bind (Pattern.match? [.run (· != '('), .char '(']) = some p₂ := by
    rw [← Pattern.match?_append]
    exact hopen
  obtain ⟨p₁, hkeyword, hrun⟩ := Option.bind_eq_some_iff.1 hsplit
  obtain ⟨between, hpassed, hadmits, -⟩ := Pattern.takes_of_match? hkeyword
  refine ⟨between ++ p₁.after.takeWhile (· != '('), ?_, ?_, not_mem_takeWhile_ne⟩
  · rw [List.append_assoc, ← after_of_match?_runTo hclose, ← after_of_match?_runTo hrun]
    exact hpassed.after
  · intro hmem
    rcases List.mem_append.1 hmem with hmem | hmem
    · have hletter := hadmits '(' hmem
      revert hletter
      decide
    · exact not_mem_takeWhile_ne hmem

/-- Where a character first stands, a text splits in one way. -/
theorem eq_of_append_cons {mark : Char} {t u t' u' : Text} (ht : mark ∉ t) (hu : mark ∉ u)
    (h : t ++ mark :: t' = u ++ mark :: u') : t = u ∧ t' = u' := by
  have hfront : t = u := by
    rw [← (takeWhile_ne_append ht t').1, h, (takeWhile_ne_append hu u').1]
  subst hfront
  exact ⟨rfl, (List.cons.inj (List.append_cancel_left h)).2⟩

/-- **The parameters of a function are found** where the last parenthesis before it is a closing
one. -/
theorem mem_parameters {front gap rest parameters : Text} (hgap : '(' ∉ gap) {q : Place}
    (h : readParameters ⟨(front ++ ')' :: gap).reverse, rest⟩ = some (parameters, q)) :
    parameters ∈ (occurrences readParameters (front ++ ')' :: gap ++ rest)).map Prod.snd := by
  obtain ⟨lead, hrest, hlead, hparameters⟩ := split_of_readParameters h
  rw [← List.append_nil (front ++ ')' :: gap).reverse] at h
  obtain ⟨before, back, found, q', between, hsplit, hmem, hfound, hpassed, hlt⟩ :=
    exists_occurrence_covering blindReader_readParameters.advances h
  obtain ⟨lead', hback, hlead', hfound'⟩ := split_of_readParameters hfound
  dsimp only at hrest hback
  suffices heq : found = parameters by
    rw [heq] at hmem
    exact List.mem_map.2 ⟨_, hmem, rfl⟩
  by_cases hopen : '(' ∈ back
  · -- The match would end at the closing parenthesis, before the place that it is to cover.
    obtain ⟨inner, hinner⟩ : ∃ inner, back = inner ++ ')' :: gap := by
      have hall : back <:+ front ++ ')' :: gap := ⟨before, hsplit.symm⟩
      rcases List.suffix_or_suffix_of_suffix hall (List.suffix_append _ _) with h | h
      · rcases List.suffix_cons_iff.1 h with rfl | h
        · exact ⟨[], rfl⟩
        · exact absurd (h.subset hopen) hgap
      · obtain ⟨inner, rfl⟩ := h
        exact ⟨inner, rfl⟩
    have hinside : '(' ∈ inner := by
      rw [hinner, List.mem_append, List.mem_cons] at hopen
      exact hopen.resolve_right (not_or.2 ⟨by decide, hgap⟩)
    obtain ⟨lead'', content, rfl, hlead''⟩ := List.eq_append_cons_of_mem hinside
    obtain ⟨found', behind, hcontent, hfound''⟩ :=
      List.eq_append_cons_of_mem (List.mem_append_right content (List.mem_singleton_self ')'))
    have hbehind : q'.after = behind ++ (gap ++ rest) := by
      have hall : lead'' ++ '(' :: (found' ++ ')' :: (behind ++ (gap ++ rest))) =
          lead' ++ '(' :: (found ++ ')' :: q'.after) := by
        have hinner' : found' ++ ')' :: (behind ++ (gap ++ rest)) =
            content ++ ')' :: (gap ++ rest) := by
          rw [← List.cons_append, ← List.append_assoc, ← hcontent]
          simp
        rw [← hback, hinner, hinner']
        simp
      exact (eq_of_append_cons hfound'' hfound' (eq_of_append_cons hlead'' hlead' hall).2).2.symm
    have hlength := congrArg List.length hpassed.after
    simp only [List.length_append, hbehind] at hlength
    omega
  · -- The match reads on to the same parenthesis.
    have hsame : lead' ++ '(' :: (found ++ ')' :: q'.after) =
        (back ++ lead) ++ '(' :: (parameters ++ ')' :: q.after) := by
      rw [← hback, hrest, List.append_assoc]
    have hnone : '(' ∉ back ++ lead := by
      rw [List.mem_append, not_or]
      exact ⟨hopen, hlead⟩
    exact (eq_of_append_cons hfound' hparameters (eq_of_append_cons hlead' hnone hsame).2).1

/-! ## Nothing undefined -/

/-- Declared functions are among the defined names, -/
theorem mem_definedNames_of_declared {code name : Text}
    (h : name ∈ (occurrences readDeclared code).map Prod.snd) : name ∈ definedNames code :=
  List.mem_append_left _ (List.mem_append_left _ h)

/-- and so are parameters. -/
theorem mem_definedNames_of_parameter {code name parameters : Text}
    (h : parameters ∈ (occurrences readParameters code).map Prod.snd)
    (hname : name ∈ parameterNames parameters) : name ∈ definedNames code := by
  obtain ⟨found, hfound, rfl⟩ := List.mem_map.1 h
  exact List.mem_append_right _ (List.mem_flatMap.2 ⟨found, hfound, hname⟩)

/-- Of several calls only the first is kept, and none is added. -/
theorem mem_of_mem_firstCalls {seen : List Text} {calls : List Call} {call : Call}
    (h : call ∈ firstCalls seen calls) : call ∈ calls := by
  induction calls generalizing seen with
  | nil => cases h
  | cons first calls ih =>
      rw [firstCalls] at h
      split at h
      · exact List.mem_cons_of_mem _ (ih h)
      · rcases List.mem_cons.1 h with rfl | h
        · exact List.mem_cons_self
        · exact List.mem_cons_of_mem _ (ih h)

/-- **No call is reported if every free call is of a name that is known or defined.** -/
theorem undefined_eq_nil {code : Text} {names : List Text} {symbols : NameSet}
    (hcalls : Throughout (KnownAt names) [] code [])
    (hnames : ∀ name ∈ names, symbols.contains name = true ∨ name ∈ definedNames code) :
    undefined code symbols = [] := by
  refine List.filter_eq_nil_iff.2 fun call hcall => ?_
  obtain ⟨⟨p, name⟩, hfound, rfl⟩ := List.mem_map.1 (mem_of_mem_firstCalls hcall)
  obtain ⟨hoccurrence, hfree⟩ := List.mem_filter.1 hfound
  obtain ⟨⟨u, v, hsplit, hne, rfl⟩, q, hread⟩ := read_of_mem_occurrencesFrom hoccurrence
  have hplace := hcalls u v hsplit hne
  rw [List.append_nil v] at hplace
  rcases hnames name (hplace name q hread hfree) with hknown | hdefined
  · simp [hknown]
  · simp [hdefined]

end Calls

end Scriptwright
