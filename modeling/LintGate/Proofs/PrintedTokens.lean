import LintGate.Markup.Printer

/-!
The tokens of a printed tree: scanning what was printed finds a tag for every tag and a text for
every text, with the characters they were printed from.
-/

namespace LintGate.Proofs.PrintedTokens

open LintGate.Markup

/-- The pieces of which an escaped text consists. -/
def piecesOf (isMarked : Char → Bool) (cs : List Char) : List Piece :=
  cs.map fun c => if isMarked c then .reference c else .plain c

theorem isMarkedInValue_of_isMarkedInText {c : Char} (h : isMarkedInText c = true) :
    isMarkedInValue c = true := by
  simp only [isMarkedInText, List.contains_eq_mem, List.mem_cons, decide_eq_true_eq] at h
  simp only [isMarkedInValue, List.contains_eq_mem, List.mem_cons, decide_eq_true_eq]
  grind

/-- Every reference that a printer makes is read as the character it was made of, and has no
character in it that ends a reference, a value or a text. -/
theorem referent?_body {c : Char} (form : ReferenceForm) (h : isMarkedInValue c = true) :
    referent? (form.body c) = some c ∧
      ∀ d ∈ form.body c, isAllowed d = true ∧ d ∉ [';', '<', '>', '"'] := by
  have hc : c ∈ ['&', '<', '>', '"', '\t', '\n', '\r'] := by
    simpa [isMarkedInValue] using h
  simp only [List.mem_cons, List.not_mem_nil, or_false] at hc
  have hbody : referent? (form.body c) = some c ∧
      (form.body c).all (fun d => isAllowed d && !([';', '<', '>', '"'].contains d)) = true := by
    rcases hc with rfl | rfl | rfl | rfl | rfl | rfl | rfl <;> cases form <;> decide +kernel
  refine ⟨hbody.1, fun d hd => ?_⟩
  simpa using List.all_eq_true.mp hbody.2 d hd

section

variable (style : Style) {isMarked : Char → Bool}

theorem escape_cons (c : Char) (cs : List Char) :
    style.escape isMarked (c :: cs) =
      (if isMarked c then style.reference c else [c]) ++ style.escape isMarked cs := by
  simp [Style.escape]

theorem escape_ne_nil {cs : List Char} (h : cs ≠ []) : style.escape isMarked cs ≠ [] := by
  obtain ⟨c, cs, rfl⟩ := List.exists_cons_of_ne_nil h
  rw [escape_cons]
  split <;> simp [Style.reference]

theorem piecesFrom?_body {body : List Char} (h : ';' ∉ body) (before rest : List Char) :
    piecesFrom? (some before) (body ++ ';' :: rest) = (do
      let referent ← referent? (before.reverse ++ body)
      let pieces ← piecesFrom? none rest
      return .reference referent :: pieces) := by
  induction body generalizing before with
  | nil => simp [piecesFrom?]
  | cons c body ih =>
      obtain ⟨hc, hbody⟩ := List.ne_and_not_mem_of_not_mem_cons h
      rw [List.cons_append, piecesFrom?]
      simp [Ne.symm hc, ih hbody]

/-- Reading an escaped text finds the characters of the text. -/
theorem pieces?_escape (hampersand : isMarked '&' = true)
    (hmarked : ∀ c, isMarked c = true → isMarkedInValue c = true) (cs : List Char) :
    pieces? (style.escape isMarked cs) = some (piecesOf isMarked cs) := by
  rw [pieces?]
  induction cs with
  | nil => rfl
  | cons c cs ih =>
      rw [escape_cons]
      by_cases hc : isMarked c = true
      · obtain ⟨hreferent, hplain⟩ := referent?_body (style c) (hmarked c hc)
        have hend : ';' ∉ (style c).body c := fun hmem => (hplain _ hmem).2 (by simp)
        rw [if_pos hc, Style.reference, List.cons_append, List.append_assoc, piecesFrom?,
          if_pos rfl, List.singleton_append, piecesFrom?_body hend]
        simp [hreferent, ih, piecesOf, hc]
      · have hne : c ≠ '&' := by
          rintro rfl
          exact hc hampersand
        rw [if_neg hc, List.singleton_append, piecesFrom?]
        simp [hne, ih, piecesOf, hc]

variable {style} in
theorem mem_escape (hmarked : ∀ c, isMarked c = true → isMarkedInValue c = true) {d : Char}
    {cs : List Char} (h : d ∈ style.escape isMarked cs) :
    (d ∈ cs ∧ isMarked d = false) ∨ d = '&' ∨ d = ';' ∨
      (isAllowed d = true ∧ d ∉ [';', '<', '>', '"']) := by
  obtain ⟨c, hc, hd⟩ := List.mem_flatMap.mp h
  by_cases hmark : isMarked c = true
  · obtain ⟨_, hplain⟩ := referent?_body (style c) (hmarked c hmark)
    simp only [hmark, if_true, Style.reference, List.mem_cons, List.mem_append, List.not_mem_nil,
      or_false] at hd
    rcases hd with hd | hd | hd
    · exact .inr (.inl hd)
    · exact .inr (.inr (.inr (hplain d hd)))
    · exact .inr (.inr (.inl hd))
  · rw [if_neg hmark, List.mem_singleton] at hd
    exact .inl ⟨hd ▸ hc, hd ▸ Bool.eq_false_iff.mpr hmark⟩

/-- A marked character that no reference is made of does not stand in an escaped text. -/
theorem not_mem_escape {d : Char} (hd : d ∈ ['<', '>', '"']) (hself : isMarked d = true)
    (hmarked : ∀ c, isMarked c = true → isMarkedInValue c = true) (cs : List Char) :
    d ∉ style.escape isMarked cs := by
  intro hmem
  rcases mem_escape hmarked hmem with ⟨_, hplain⟩ | rfl | rfl | ⟨_, hplain⟩
  · rw [hself] at hplain
    cases hplain
  · simp at hd
  · simp at hd
  · exact hplain (List.mem_cons_of_mem _ hd)

variable {style} in
theorem isAllowed_of_mem_escape (hmarked : ∀ c, isMarked c = true → isMarkedInValue c = true)
    {cs : List Char} (hcs : ∀ c ∈ cs, isAllowed c = true) :
    ∀ d ∈ style.escape isMarked cs, isAllowed d = true := by
  intro d hd
  rcases mem_escape hmarked hd with ⟨hmem, _⟩ | rfl | rfl | ⟨hallowed, _⟩
  · exact hcs d hmem
  · rfl
  · rfl
  · exact hallowed

end

section

variable {label : List Char}

theorem isLabel_iff : isLabel label = true ↔
    (∃ c rest, label = c :: rest ∧ isNameStart c = true) ∧
      ∀ c ∈ label, isNameChar c = true ∧ c ≠ ':' := by
  cases label with
  | nil => simp [isLabel]
  | cons c rest => simp [isLabel]

theorem qname?_append (h : isLabel label = true) {rest : List Char}
    (hrest : rest.head?.any isNameChar = false) :
    qname? (label ++ rest) = some (⟨[], label⟩, rest) := by
  obtain ⟨⟨c, cs, rfl, hstart⟩, hchars⟩ := isLabel_iff.mp h
  have hname : ∀ d ∈ c :: cs, isNameChar d = true := fun d hd => (hchars d hd).1
  have hcolon : ':' ∉ c :: cs := fun hmem => (hchars _ hmem).2 rfl
  have hnone : rest.takeWhile isNameChar = [] ∧ rest.dropWhile isNameChar = rest := by
    cases rest with
    | nil => simp
    | cons d rest =>
        have hd : isNameChar d = false := by simpa using hrest
        simp [hd]
  rw [qname?, List.takeWhile_append_of_pos hname, List.dropWhile_append_of_pos hname, hnone.1,
    hnone.2, List.append_nil, List.splitOn_eq_singleton hcolon]
  simp [startsAsName, hstart]

theorem range_of_isAlpha {c : Char} (h : c.isAlpha = true) : 65 ≤ c.toNat ∧ c.toNat ≤ 122 := by
  have hcase : (decide (c.val ≥ 65 ∧ c.val ≤ 90) ||
      (decide (c.val ≥ 97) && decide (c.val ≤ 122))) = true := h
  simp only [Bool.or_eq_true, Bool.and_eq_true, decide_eq_true_eq, ge_iff_le,
    UInt32.le_iff_toNat_le, Char.toNat_val, UInt32.reduceToNat] at hcase
  omega

theorem isAllowed_of_isNameChar {c : Char} (h : isNameChar c = true) : isAllowed c = true := by
  have halpha : c.isAlpha = true → 65 ≤ c.toNat ∧ c.toNat ≤ 122 := range_of_isAlpha
  simp only [isNameChar, isNameStart, Char.isDigit, Bool.or_eq_true, Bool.and_eq_true,
    decide_eq_true_eq, beq_iff_eq, ge_iff_le, UInt32.le_iff_toNat_le, Char.reduceVal,
    UInt32.reduceToNat, Char.toNat_val, ← Char.toNat_inj, Char.reduceToNat] at h
  simp only [isAllowed, Bool.and_eq_true, Bool.or_eq_true, decide_eq_true_eq, bne_iff_ne,
    beq_iff_eq]
  grind

theorem isAllowed_of_mem_label (h : isLabel label = true) : ∀ c ∈ label, isAllowed c = true :=
  fun c hc => isAllowed_of_isNameChar ((isLabel_iff.mp h).2 c hc).1

/-- A label starts with none of the characters that stand at its place in other markup. -/
theorem exists_head (h : isLabel label = true) :
    ∃ c rest, label = c :: rest ∧ isSpace c = false ∧ c ∉ ['!', '?', '/', '>'] := by
  obtain ⟨⟨c, rest, rfl, hstart⟩, _⟩ := isLabel_iff.mp h
  refine ⟨c, rest, rfl, ?_, ?_⟩
  · apply Bool.eq_false_iff.mpr
    intro hspace
    simp only [isSpace, Bool.or_eq_true, beq_iff_eq] at hspace
    rcases hspace with ((rfl | rfl) | rfl) | rfl <;> exact absurd hstart (by decide)
  · intro hmem
    simp only [List.mem_cons, List.not_mem_nil, or_false] at hmem
    rcases hmem with rfl | rfl | rfl | rfl <;> exact absurd hstart (by decide)

end

section

variable (style : Style)

/-- An attribute as a printed tag has it. -/
def writtenOf (a : Attribute) : WrittenAttribute :=
  ⟨⟨[], a.label.toList⟩, piecesOf isMarkedInValue a.value.toList⟩

variable {style}

theorem skipSpace_space (cs : List Char) : skipSpace (' ' :: cs) = skipSpace cs :=
  rfl

theorem skipSpace_cons {c : Char} (h : isSpace c = false) (cs : List Char) :
    skipSpace (c :: cs) = c :: cs := by
  simp [skipSpace, h]

theorem takeWhile_append_cons {p : Char → Bool} {cs : List Char} {d : Char}
    (hcs : ∀ c ∈ cs, p c = true) (hd : p d = false) (rest : List Char) :
    (cs ++ d :: rest).takeWhile p = cs ∧ (cs ++ d :: rest).dropWhile p = d :: rest := by
  rw [List.takeWhile_append_of_pos hcs, List.dropWhile_append_of_pos hcs]
  simp [hd]

theorem rawAttribute?_append {label value : List Char} (hlabel : isLabel label = true)
    (hquote : '"' ∉ value) (hangle : '<' ∉ value) (rest : List Char) :
    rawAttribute? (label ++ '=' :: '"' :: (value ++ '"' :: rest)) =
      some (⟨[], label⟩, value, rest) := by
  have hvalue : ∀ c ∈ value, (c != '"' && c != '<') = true := by
    intro c hc
    simp only [Bool.and_eq_true, bne_iff_ne]
    exact ⟨fun he => hquote (he ▸ hc), fun he => hangle (he ▸ hc)⟩
  obtain ⟨htake, hdrop⟩ := takeWhile_append_cons hvalue (d := '"') rfl rest
  rw [rawAttribute?, qname?_append hlabel (by rfl)]
  simp [after?, skipSpace, isSpace, htake, hdrop]

/-- The end of an opening tag. -/
def tagEnd (selfClosing : Bool) : List Char :=
  if selfClosing then ['/', '>'] else ['>']

variable (style) in
/-- The attributes of a printed tag are read from what stands between its name and its end. -/
theorem attributes?_append (selfClosing : Bool) {attributes : List Attribute}
    (h : ∀ a ∈ attributes, a.Printable) (rest : List Char) {fuel : Nat}
    (hfuel : attributes.length < fuel) :
    attributes? fuel (attributes.flatMap style.attribute ++ (tagEnd selfClosing ++ rest)) =
      some (attributes.map writtenOf, selfClosing, rest) := by
  induction attributes generalizing fuel with
  | nil =>
      obtain ⟨fuel, rfl⟩ := Nat.exists_eq_add_of_lt hfuel
      cases selfClosing <;> simp [tagEnd, attributes?, skipSpace, isSpace]
  | cons a attributes ih =>
      obtain ⟨fuel, rfl⟩ : ∃ n, fuel = n + 1 := ⟨fuel - 1, by simp at hfuel; omega⟩
      obtain ⟨ha, hrest⟩ := List.forall_mem_cons.mp h
      have hroom : attributes.length < fuel := by simpa using hfuel
      have hraw := rawAttribute?_append ha.label
        (not_mem_escape style (by simp) rfl (fun _ h => h) a.value.toList)
        (not_mem_escape style (by simp) rfl (fun _ h => h) a.value.toList)
        (attributes.flatMap style.attribute ++ (tagEnd selfClosing ++ rest))
      have hpieces : pieces? (style.escape isMarkedInValue a.value.toList) =
          some (piecesOf isMarkedInValue a.value.toList) :=
        pieces?_escape style rfl (fun _ h => h) a.value.toList
      obtain ⟨c, cs, hlabel, hspace, hplain⟩ := exists_head ha.label
      simp only [List.mem_cons, List.not_mem_nil, or_false, not_or] at hplain
      rw [hlabel] at hraw
      simp only [List.flatMap_cons, Style.attribute, hlabel, List.cons_append, List.append_assoc,
        List.nil_append] at hraw ⊢
      rw [attributes?, skipSpace_space, skipSpace_cons hspace]
      split
      · simp_all
      · simp_all
      · simp [hraw, hpieces, ih hrest hroom, isSpace, writtenOf, hlabel]

end

section

theorem after?_append (start rest : List Char) : after? start (start ++ rest) = some rest := by
  have hprefix : start.isPrefixOf (start ++ rest) = true :=
    List.isPrefixOf_iff_prefix.mpr (List.prefix_append start rest)
  simp [after?, hprefix]

theorem skipSpace_label {label : List Char} (h : isLabel label = true) (rest : List Char) :
    skipSpace (label ++ rest) = label ++ rest := by
  obtain ⟨c, cs, rfl, hspace, _⟩ := exists_head h
  exact skipSpace_cons hspace (cs ++ rest)

theorem declared?_append {name : String} {value : List Char} (hname : isLabel name.toList = true)
    (hquote : '"' ∉ value) (hangle : '<' ∉ value) (rest : List Char) :
    Token.declared? name (name.toList ++ '=' :: '"' :: (value ++ '"' :: rest)) = some rest := by
  simp [Token.declared?, after?_append, rawAttribute?_append hname hquote hangle]

theorem declaration_eq : Node.declaration =
    "<?xml ".toList ++ ("version".toList ++ '=' :: '"' :: ("1.0".toList ++ '"' ::
      ' ' :: ("encoding".toList ++ '=' :: '"' :: ("UTF-8".toList ++ '"' ::
        ("?>".toList ++ ['\n']))))) := by
  decide +kernel

theorem separation?_space {label : List Char} (h : isLabel label = true) (rest : List Char) :
    Token.separation? (' ' :: (label ++ rest)) = some (label ++ rest) := by
  simp [Token.separation?, isSpace, skipSpace_space, skipSpace_label h]

theorem separation?_end (rest : List Char) :
    Token.separation? ("?>".toList ++ rest) = some ("?>".toList ++ rest) := by
  simp [Token.separation?, skipSpace, isSpace, after?]

/-- What follows the declaration of a printed document is read as its body. -/
theorem declaration?_append (body : List Char) :
    (after? "<?xml ".toList (Node.declaration ++ body)).bind Token.declaration? =
      some ('\n' :: body) := by
  have hversion : isLabel "version".toList = true := by decide +kernel
  have hencoding : isLabel "encoding".toList = true := by decide +kernel
  have hstandalone : after? "standalone".toList ("?>".toList ++ '\n' :: body) = none := by
    simp [after?]
  simp only [declaration_eq, List.append_assoc, List.cons_append, List.nil_append, after?_append,
    Option.bind_some, Token.declaration?, skipSpace_label hversion]
  rw [declared?_append hversion (by decide +kernel) (by decide +kernel)]
  simp only [Option.bind_eq_bind, Option.bind_some, separation?_space hencoding, after?_append,
    Option.isSome_some, if_true]
  rw [declared?_append hencoding (by decide +kernel) (by decide +kernel)]
  simp only [Option.bind_some, separation?_end, hstandalone, Option.isSome_none,
    Bool.false_eq_true, if_false]
  simp [skipSpace, isSpace, after?]

end

/-- Scanning the text gives these tokens, whatever room there is beyond its length. -/
def Scans (cs : List Char) (tokens : List Token) : Prop :=
  ∀ fuel, cs.length ≤ fuel → Token.scanAll? fuel cs = some tokens

theorem scans_nil : Scans [] [] := by
  rintro ⟨⟩ _ <;> rfl

theorem Scans.cons {cs rest : List Char} {token : Token} {tokens : List Token}
    (hscan : ∀ fuel, cs.length ≤ fuel → Token.scan? fuel cs = some (token, rest))
    (hlt : rest.length < cs.length) (hrest : Scans rest tokens) :
    Scans cs (token :: tokens) := by
  intro fuel hfuel
  obtain ⟨fuel, rfl⟩ : ∃ n, fuel = n + 1 := ⟨fuel - 1, by omega⟩
  cases cs with
  | nil => simp at hlt
  | cons c cs =>
      have htoken := hscan (fuel + 1) hfuel
      have htokens := hrest fuel (by omega)
      simp [Token.scanAll?, htoken, htokens]

section

variable (style : Style)

theorem scan?_opening (selfClosing : Bool) {label : List Char} (hlabel : isLabel label = true)
    {attributes : List Attribute} (h : ∀ a ∈ attributes, a.Printable) (rest : List Char)
    {fuel : Nat} (hfuel : attributes.length < fuel) :
    Token.scan? fuel
        ('<' :: (label ++ (attributes.flatMap style.attribute ++ (tagEnd selfClosing ++ rest)))) =
      some (.opening ⟨[], label⟩ (attributes.map writtenOf) selfClosing, rest) := by
  have hnext : (attributes.flatMap style.attribute ++
      (tagEnd selfClosing ++ rest)).head?.any isNameChar = false := by
    cases attributes with
    | nil => cases selfClosing <;> rfl
    | cons a attributes => rfl
  have hqname := qname?_append hlabel hnext
  have hattributes := attributes?_append style selfClosing h rest hfuel
  obtain ⟨c, cs, rfl, _, hplain⟩ := exists_head hlabel
  simp only [List.mem_cons, List.not_mem_nil, or_false, not_or] at hplain
  rw [List.cons_append] at hqname ⊢
  unfold Token.scan?
  split <;> simp_all

theorem scan?_closing {label : List Char} (hlabel : isLabel label = true) (rest : List Char)
    (fuel : Nat) :
    Token.scan? fuel ('<' :: '/' :: (label ++ '>' :: rest)) =
      some (.closing ⟨[], label⟩, rest) := by
  have hqname : qname? (label ++ '>' :: rest) = some (⟨[], label⟩, '>' :: rest) :=
    qname?_append hlabel rfl
  simp [Token.scan?, hqname, skipSpace, isSpace, after?]

theorem until?_eq_none {stop cs : List Char} {d : Char} (hd : d ∈ stop) (hcs : d ∉ cs) :
    until? stop cs = none := by
  induction cs with
  | nil => rfl
  | cons c cs ih =>
      have hstop : stop.isPrefixOf (c :: cs) = false := by
        apply Bool.eq_false_iff.mpr
        intro h
        exact hcs ((List.isPrefixOf_iff_prefix.mp h).subset hd)
      have hrest := ih fun hmem => hcs (List.mem_cons_of_mem c hmem)
      simp [until?, hstop, hrest]

theorem scan?_text {content : List Char} (hcontent : content ≠ []) {rest : List Char}
    (hrest : rest.head? = some '<') (fuel : Nat) :
    Token.scan? fuel (style.escape isMarkedInText content ++ rest) =
      some (.text (piecesOf isMarkedInText content), rest) := by
  obtain ⟨rest, rfl⟩ : ∃ tail, rest = '<' :: tail := by
    cases rest with
    | nil => simp at hrest
    | cons c tail => exact ⟨tail, by simpa using hrest⟩
  have hmarked : ∀ c, isMarkedInText c = true → isMarkedInValue c = true :=
    fun _ h => isMarkedInValue_of_isMarkedInText h
  have hpieces := pieces?_escape style rfl hmarked content
  have hangle : '<' ∉ style.escape isMarkedInText content :=
    not_mem_escape style (by simp) rfl hmarked content
  have hplain : ∀ c ∈ style.escape isMarkedInText content, (c != '<') = true := by
    intro c hc
    simp only [bne_iff_ne]
    rintro rfl
    exact hangle hc
  have huntil : until? "]]>".toList (style.escape isMarkedInText content) = none :=
    until?_eq_none (d := '>') (by decide) (not_mem_escape style (by simp) rfl hmarked content)
  obtain ⟨htake, hdrop⟩ := takeWhile_append_cons hplain (d := '<') rfl rest
  have hne : style.escape isMarkedInText content ≠ [] := escape_ne_nil style hcontent
  obtain ⟨c, cs, hcons⟩ := List.exists_cons_of_ne_nil hne
  have hne : c ≠ '<' := by
    rintro rfl
    exact hangle (hcons ▸ List.mem_cons_self)
  rw [hcons] at hpieces huntil htake hdrop ⊢
  rw [List.cons_append] at htake hdrop ⊢
  unfold Token.scan?
  split
  · simp_all
  · simp_all
  · simp_all
  · simp_all
  · simp only [htake, hdrop, huntil, hpieces]
    rfl

end

end LintGate.Proofs.PrintedTokens
