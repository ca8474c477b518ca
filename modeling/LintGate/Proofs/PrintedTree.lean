import LintGate.Proofs.PrintedTokens

/-!
Reading a printed document gives back the tree that was printed.
-/

namespace LintGate.Proofs.PrintedTree

open LintGate.Markup
open LintGate.Proofs.PrintedTokens

mutual
/-- The tokens of a printed node. -/
def tokensOf : Node → List Token
  | .element label attributes children =>
    .opening ⟨[], label.toList⟩ (attributes.map writtenOf) children.isEmpty ::
      if children.isEmpty then [] else tokensOfAll children ++ [.closing ⟨[], label.toList⟩]
  | .text content => [.text (piecesOf isMarkedInText content)]
  | .aside => []

def tokensOfAll : List Node → List Token
  | [] => []
  | n :: rest => tokensOf n ++ tokensOfAll rest
end

section

variable {style : Style}

/-- What follows a node can be scanned after it, if a text is followed by a tag. -/
def ScansBefore (style : Style) (n : Node) : Prop :=
  ∀ rest tokens, (n.isText = true → rest.head? = some '<') → Scans rest tokens →
    Scans (n.print style ++ rest) (tokensOf n ++ tokens)

theorem head?_print (style : Style) {n : Node} (h : n.Printable) (htext : n.isText = false)
    (rest : List Char) : (n.print style ++ rest).head? = some '<' := by
  cases h with
  | element => simp [Node.print]
  | text => cases htext

theorem scans_printAll {children : List Node} (hprintable : ∀ n ∈ children, n.Printable)
    (hscans : ∀ n ∈ children, ScansBefore style n) (hapart : Node.areApart children = true)
    {rest : List Char} {tokens : List Token} (hnext : rest.head? = some '<')
    (hrest : Scans rest tokens) :
    Scans (Node.printAll style children ++ rest) (tokensOfAll children ++ tokens) := by
  induction children with
  | nil => exact hrest
  | cons n children ih =>
      obtain ⟨_, hprintables⟩ := List.forall_mem_cons.mp hprintable
      obtain ⟨hn, hall⟩ := List.forall_mem_cons.mp hscans
      simp only [Node.areApart, Bool.and_eq_true, Bool.not_eq_true', Bool.and_eq_false_iff]
        at hapart
      obtain ⟨hneighbour, hapart⟩ := hapart
      rw [Node.printAll, tokensOfAll, List.append_assoc, List.append_assoc]
      refine hn _ _ ?_ (ih hprintables hall hapart)
      intro htext
      cases children with
      | nil => exact hnext
      | cons m children =>
          have hm : m.isText = false := by simpa [htext] using hneighbour
          rw [Node.printAll, List.append_assoc]
          exact head?_print style (hprintables m List.mem_cons_self) hm _

variable (style) in
theorem length_le_attributes (attributes : List Attribute) :
    attributes.length ≤ (attributes.flatMap style.attribute).length := by
  induction attributes with
  | nil => exact Nat.le_refl _
  | cons a attributes ih =>
      simp only [List.length_cons, List.flatMap_cons, List.length_append, Style.attribute]
      omega

theorem scans_opening (selfClosing : Bool) {label : List Char} (hlabel : isLabel label = true)
    {attributes : List Attribute} (h : ∀ a ∈ attributes, a.Printable) {rest : List Char}
    {tokens : List Token} (hrest : Scans rest tokens) :
    Scans ('<' :: (label ++ (attributes.flatMap style.attribute ++ (tagEnd selfClosing ++ rest))))
      (.opening ⟨[], label⟩ (attributes.map writtenOf) selfClosing :: tokens) := by
  refine .cons (fun fuel hfuel => scan?_opening style selfClosing hlabel h rest ?_) ?_ hrest
  · have hcount := length_le_attributes style attributes
    simp only [List.length_cons, List.length_append] at hfuel
    omega
  · simp only [List.length_cons, List.length_append]
    omega

theorem scans_closing {label : List Char} (hlabel : isLabel label = true) {rest : List Char}
    {tokens : List Token} (hrest : Scans rest tokens) :
    Scans ('<' :: '/' :: (label ++ '>' :: rest)) (.closing ⟨[], label⟩ :: tokens) := by
  refine .cons (fun fuel _ => scan?_closing hlabel rest fuel) ?_ hrest
  simp only [List.length_cons, List.length_append]
  omega

/-- By induction on the tree: what follows a node is scanned after the tokens of the node. -/
theorem scansBefore_of_printable (style : Style) {n : Node} (h : n.Printable) :
    ScansBefore style n := by
  induction h with
  | text content_ne _ =>
      intro rest tokens hnext hrest
      refine .cons (fun fuel _ => scan?_text style content_ne (hnext rfl) fuel) ?_ hrest
      have hne : style.escape isMarkedInText _ ≠ [] := escape_ne_nil style content_ne
      have hlength := List.length_pos_iff.mpr hne
      simp only [Node.print, List.length_append]
      omega
  | @element label attributes children hlabel hattributes _ hchildren hapart ih =>
      intro rest tokens _ hrest
      simp only [Node.print, tokensOf, List.cons_append, List.append_assoc]
      cases hempty : children.isEmpty with
      | true =>
          simpa [tagEnd] using scans_opening true hlabel hattributes hrest
      | false =>
          have hclosing := scans_closing hlabel hrest
          have hall := scans_printAll hchildren ih hapart rfl hclosing
          simpa [tagEnd] using scans_opening false hlabel hattributes hall

end

/-- A value that was printed is read as it was: no white space of it stands there itself but
spaces. -/
theorem valueOf_piecesOf (cs : List Char) : Node.valueOf (piecesOf isMarkedInValue cs) = cs := by
  induction cs with
  | nil => rfl
  | cons c cs ih =>
      rw [piecesOf, List.map_cons]
      by_cases hc : isMarkedInValue c = true
      · rw [if_pos hc, Node.valueOf]
        exact congrArg _ ih
      · have hreturn : c ≠ '\r' := by
          rintro rfl
          exact hc rfl
        have hspace : (if isSpace c then ' ' else c) = c := by
          by_cases hs : isSpace c = true
          · simp only [isSpace, Bool.or_eq_true, beq_iff_eq] at hs
            rcases hs with ((rfl | rfl) | rfl) | rfl
            · rfl
            all_goals exact absurd rfl hc
          · rw [if_neg hs]
        rw [if_neg hc, Node.valueOf, hspace]
        · exact congrArg _ ih
        · intro rest _ hplain
          exact hreturn hplain

/-- The pieces right after a reference. -/
def shelteredAfter : List Piece → List Piece
  | .plain c :: rest => .reference c :: Node.sheltered rest
  | pieces => Node.sheltered pieces

theorem sheltered_reference (c : Char) (pieces : List Piece) :
    Node.sheltered (.reference c :: pieces) = .reference c :: shelteredAfter pieces := by
  cases pieces with
  | nil => rfl
  | cons p pieces => cases p <;> rfl

/-- A text that was printed is read as it was. A carriage return is always referred to, so that it
is held until the next character comes, and that one counts as referred to as well. -/
theorem textFrom_piecesOf (cs : List Char) :
    Node.textFrom false (Node.sheltered (piecesOf isMarkedInText cs)) = cs ∧
      ∀ held, Node.textFrom held (shelteredAfter (piecesOf isMarkedInText cs)) =
        if held then '\r' :: cs else cs := by
  induction cs with
  | nil => exact ⟨rfl, by rintro ⟨⟩ <;> rfl⟩
  | cons c cs ih =>
      obtain ⟨hplain, hafter⟩ := ih
      rw [piecesOf, List.map_cons, ← piecesOf]
      by_cases hc : isMarkedInText c = true
      · have hreference (held : Bool) :
            Node.textFrom held (.reference c :: shelteredAfter (piecesOf isMarkedInText cs)) =
              if held then '\r' :: c :: cs else c :: cs := by
          rw [Node.textFrom, hafter, hafter]
          by_cases hreturn : c = '\r' <;> cases held <;> simp [hreturn]
        rw [if_pos hc]
        refine ⟨?_, fun held => ?_⟩
        · rw [sheltered_reference]
          exact hreference false
        · rw [shelteredAfter, sheltered_reference]
          · exact hreference held
          · rintro _ _ ⟨⟩
      · have hreturn : c ≠ '\r' := by
          rintro rfl
          exact hc rfl
        rw [if_neg hc]
        refine ⟨?_, fun held => ?_⟩
        · rw [Node.sheltered, Node.textFrom, hplain]
          · simp [hreturn]
          · rintro _ _ _ ⟨⟩
        · rw [shelteredAfter, Node.textFrom, hplain]
          cases held <;> simp [hreturn]

theorem textOf_piecesOf (cs : List Char) : Node.textOf (piecesOf isMarkedInText cs) = cs :=
  (textFrom_piecesOf cs).1

theorem toList_label_ne {a : Attribute} (h : a.Printable) : a.label.toList ≠ "xmlns".toList :=
  fun he => h.label_ne (String.toList_injective he)

theorem space_writtenOf_ne (a : Attribute) : (writtenOf a).name.space ≠ "xmlns".toList :=
  (by decide : ([] : List Char) ≠ "xmlns".toList)

theorem declarations?_map {attributes : List Attribute} (h : ∀ a ∈ attributes, a.Printable) :
    Node.declarations? (attributes.map writtenOf) = some [] := by
  induction attributes with
  | nil => rfl
  | cons a attributes ih =>
      obtain ⟨ha, hrest⟩ := List.forall_mem_cons.mp h
      have hspace := space_writtenOf_ne a
      have hlabel : (writtenOf a).name.label ≠ "xmlns".toList := toList_label_ne ha
      rw [List.map_cons, Node.declarations?, ih hrest]
      simp only [Option.bind_eq_bind, Option.bind_some, if_neg hspace, if_neg hlabel]

theorem resolve?_writtenOf {a : Attribute} (h : a.Printable) (scope : Node.Scope) :
    Node.resolve? scope (writtenOf a) = some a := by
  obtain ⟨space, label, value⟩ := a
  obtain rfl : space = none := h.space
  simp [Node.resolve?, writtenOf, valueOf_piecesOf]

theorem mapM_resolve? {attributes : List Attribute} (h : ∀ a ∈ attributes, a.Printable)
    (scope : Node.Scope) :
    (attributes.map writtenOf).mapM (Node.resolve? scope) = some attributes := by
  induction attributes with
  | nil => rfl
  | cons a attributes ih =>
      obtain ⟨ha, hrest⟩ := List.forall_mem_cons.mp h
      rw [List.map_cons, List.mapM_cons, resolve?_writtenOf ha, ih hrest]
      rfl

theorem distinct_of_nodup {attributes : List Attribute}
    (h : (attributes.map (·.label)).Nodup) : Node.distinct attributes = true := by
  induction attributes with
  | nil => rfl
  | cons a attributes ih =>
      obtain ⟨hfresh, hrest⟩ := List.nodup_cons.mp h
      rw [Node.distinct, ih hrest, Bool.and_true, List.all_eq_true]
      intro b hb
      have hne : a.label ≠ b.label := fun he => hfresh (List.mem_map.mpr ⟨b, hb, he.symm⟩)
      simp [hne]

theorem enter?_map {attributes : List Attribute} (h : ∀ a ∈ attributes, a.Printable)
    (hnodup : (attributes.map (·.label)).Nodup) (scope : Node.Scope) (label : List Char) :
    Node.enter? scope ⟨[], label⟩ (attributes.map writtenOf) = some (scope, attributes) := by
  have hdeclares : (attributes.map writtenOf).filter (!Node.declares ·) =
      attributes.map writtenOf := by
    apply List.filter_eq_self.mpr
    intro w hw
    obtain ⟨a, ha, rfl⟩ := List.mem_map.mp hw
    have hlabel : (writtenOf a).name.label ≠ "xmlns".toList := toList_label_ne (h a ha)
    have hspace := space_writtenOf_ne a
    simp only [Node.declares, beq_eq_false_iff_ne.mpr hspace, beq_eq_false_iff_ne.mpr hlabel,
      Bool.or_self, Bool.not_false]
  rw [Node.enter?, declarations?_map h]
  simp only [Option.bind_eq_bind, Option.bind_some, List.nil_append, hdeclares,
    mapM_resolve? h, distinct_of_nodup hnodup]
  rfl

/-- The tokens of the node add the node to a draft in which it has a place. -/
def AddsTo (n : Node) : Prop :=
  ∀ (d : Node.Draft) (tokens : List Token),
    (d.pending = [] → d.root = none ∧ n.isText = false) →
      (tokensOf n ++ tokens).foldlM Node.Draft.step? d =
        (d.add? n).bind fun d => tokens.foldlM Node.Draft.step? d

theorem push_eq {n : Node} {children : List Node}
    (h : (n.isText && children.head?.any Node.isText) = false) :
    Node.push n children = n :: children := by
  cases n with
  | text t =>
      cases children with
      | nil => rfl
      | cons m children => cases m <;> simp_all [Node.push, Node.isText]
  | element => rfl
  | aside => rfl

theorem foldlM_tokensOfAll {children : List Node} (hadds : ∀ n ∈ children, AddsTo n)
    (hapart : Node.areApart children = true) (root : Option Node) (p : Node.Pending)
    (outer : List Node.Pending)
    (hfirst : (children.head?.any Node.isText && p.children.head?.any Node.isText) = false)
    (tokens : List Token) :
    (tokensOfAll children ++ tokens).foldlM Node.Draft.step? ⟨root, p :: outer⟩ =
      tokens.foldlM Node.Draft.step?
        ⟨root, { p with children := children.reverse ++ p.children } :: outer⟩ := by
  induction children generalizing p with
  | nil => rfl
  | cons n children ih =>
      obtain ⟨hn, hall⟩ := List.forall_mem_cons.mp hadds
      rw [Node.areApart, Bool.and_eq_true, Bool.not_eq_true'] at hapart
      obtain ⟨hneighbour, hapart⟩ := hapart
      rw [tokensOfAll, List.append_assoc, hn _ _ (by simp)]
      have hpush : Node.push n p.children = n :: p.children := push_eq (by simpa using hfirst)
      simp only [Node.Draft.add?, hpush, Option.bind_some]
      rw [ih hall hapart _ (by simpa [Bool.and_comm] using hneighbour)]
      simp

/-- By induction on the tree. -/
theorem addsTo_of_printable {n : Node} (h : n.Printable) : AddsTo n := by
  induction h with
  | @text content _ _ =>
      intro d tokens hplace
      obtain ⟨root, pending⟩ := d
      cases pending with
      | nil => simp [Node.isText] at hplace
      | cons p outer => simp [tokensOf, Node.Draft.step?, textOf_piecesOf]
  | @element label attributes children hlabel hattributes hnodup hchildren hapart ih =>
      rintro ⟨root, pending⟩ tokens hplace
      have hopens (scope : Node.Scope) := enter?_map hattributes hnodup scope label.toList
      cases hempty : children.isEmpty with
      | true =>
          obtain rfl := List.isEmpty_iff.mp hempty
          simp [tokensOf, Node.Draft.step?, hopens]
      | false =>
          have hroom : (pending.isEmpty && root.isSome) = false := by
            cases pending with
            | nil =>
                have hroot : root = none := (hplace rfl).1
                rw [hroot]
                rfl
            | cons => rfl
          simp only [tokensOf, hempty, if_false, Bool.false_eq_true, List.cons_append,
            List.append_assoc, List.foldlM_cons, Node.Draft.step?, hopens, Option.bind_eq_bind,
            Option.bind_some, hroom]
          rw [foldlM_tokensOfAll ih hapart root _ pending (by simp)]
          simp [Node.Draft.step?]

theorem mem_printAll {style : Style} {children : List Node} {c : Char}
    (h : c ∈ Node.printAll style children) : ∃ n ∈ children, c ∈ n.print style := by
  induction children with
  | nil => simp [Node.printAll] at h
  | cons n children ih =>
      rw [Node.printAll, List.mem_append] at h
      rcases h with h | h
      · exact ⟨n, List.mem_cons_self, h⟩
      · obtain ⟨m, hm, hc⟩ := ih h
        exact ⟨m, List.mem_cons_of_mem n hm, hc⟩

theorem isAllowed_of_mem_attribute {style : Style} {a : Attribute} (h : a.Printable) :
    ∀ c ∈ style.attribute a, isAllowed c = true := by
  intro c hc
  simp only [Style.attribute, List.mem_cons, List.mem_append, List.not_mem_nil, or_false] at hc
  rcases hc with rfl | hc | rfl | rfl | hc | rfl
  · rfl
  · exact isAllowed_of_mem_label h.label c hc
  · rfl
  · rfl
  · exact isAllowed_of_mem_escape (fun _ h => h) h.value c hc
  · rfl

/-- A printed tree consists of characters that may stand in a document. -/
theorem isAllowed_of_mem_print {style : Style} {n : Node} (h : n.Printable) :
    ∀ c ∈ n.print style, isAllowed c = true := by
  induction h with
  | text _ hcontent =>
      exact isAllowed_of_mem_escape (fun _ h => isMarkedInValue_of_isMarkedInText h) hcontent
  | @element label attributes children hlabel hattributes _ _ _ ih =>
      have hname := isAllowed_of_mem_label hlabel
      intro c hc
      simp only [Node.print, List.mem_cons, List.mem_append] at hc
      rcases hc with rfl | hc | hc | hc
      · rfl
      · exact hname c hc
      · obtain ⟨a, ha, hc⟩ := List.mem_flatMap.mp hc
        exact isAllowed_of_mem_attribute (hattributes a ha) c hc
      · cases hempty : children.isEmpty with
        | true =>
            simp only [hempty, if_true, List.mem_cons, List.not_mem_nil, or_false] at hc
            rcases hc with rfl | rfl <;> rfl
        | false =>
            simp only [hempty, Bool.false_eq_true, if_false, List.mem_cons, List.mem_append,
              List.not_mem_nil, or_false] at hc
            rcases hc with rfl | hc | rfl | rfl | hc | rfl
            · rfl
            · obtain ⟨n, hn, hc⟩ := mem_printAll hc
              exact ih n hn c hc
            · rfl
            · rfl
            · exact hname c hc
            · rfl

theorem ofTokens?_tokensOf {root : Node} (h : root.Printable) (helement : root.isText = false) :
    Node.ofTokens? (.text [.plain '\n'] :: tokensOf root) = some root := by
  have hadds := addsTo_of_printable h ⟨none, []⟩ [] fun _ => ⟨rfl, helement⟩
  have hspace : Node.Draft.step? ⟨none, []⟩ (.text [.plain '\n']) = some ⟨none, []⟩ := rfl
  rw [List.append_nil] at hadds
  simp only [Node.ofTokens?, List.foldlM_cons, hspace, Option.bind_eq_bind, Option.bind_some, hadds]
  cases h with
  | element => rfl
  | text => cases helement

/-- Reading a printed document gives back its root element. -/
theorem ofDocument?_document (style : Style) {root : Node} (h : root.Printable)
    (helement : root.isText = false) : Node.ofDocument? (root.document style) = some root := by
  have hallowed : (Node.declaration ++ root.print style).all isAllowed = true := by
    rw [List.all_append, Bool.and_eq_true, List.all_eq_true, List.all_eq_true]
    exact ⟨List.all_eq_true.mp (by decide +kernel), isAllowed_of_mem_print h⟩
  have hroot : Scans (root.print style) (tokensOf root) := by
    simpa using scansBefore_of_printable style h [] [] (by simp [helement]) scans_nil
  have hscans : Scans ('\n' :: root.print style) (.text [.plain '\n'] :: tokensOf root) := by
    have hhead : (root.print style).head? = some '<' := by
      simpa using head?_print style h helement []
    have hline : ['\n'] ≠ [] := List.cons_ne_nil _ _
    exact .cons (fun fuel _ => scan?_text style hline hhead fuel) (Nat.lt_succ_self _) hroot
  have hbody := declaration?_append (root.print style)
  obtain ⟨rest, hafter, hdeclared⟩ := Option.bind_eq_some_iff.mp hbody
  have htokens : Token.ofDocument? (Node.declaration ++ root.print style) =
      some (.text [.plain '\n'] :: tokensOf root) := by
    rw [Token.ofDocument?, hallowed]
    simp only [hafter, hdeclared, Bool.not_true, Bool.false_eq_true, if_false, Option.bind_eq_bind,
      Option.bind_some]
    exact hscans _ (Nat.le_refl _)
  rw [Node.ofDocument?, Node.document, String.toList_ofList, htokens, Option.bind_some,
    ofTokens?_tokensOf h helement]

end LintGate.Proofs.PrintedTree
