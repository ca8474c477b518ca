import LintGate.Proofs.JsonTokens

/-!
JSON texts that were printed. Whether a value is printed on one line or over many, the reader finds
the outline of the value and stops where its text ends.
-/

namespace LintGate.Proofs.PrintedJson

open LintGate.Json
open LintGate.Json.Value (compactChars compactItems compactMembers indentedChars indentedItems
  indentedMembers newLine)
open LintGate.Proofs.JsonTokens

def Spaces (cs : List Char) : Prop :=
  ∀ c ∈ cs, isSpace c = true

mutual
/-- The texts that are printed for a value. There may be white space inside brackets, behind commas
and behind colons. -/
inductive Printed : Value → List Char → Prop
  | null : Printed .null "null".toList
  | bool (b : Bool) : Printed (.bool b) (if b then "true" else "false").toList
  | number {n : Number} (h : ReadsBack n) : Printed (.number n) n.text.toList
  | string (s : String) : Printed (.string s) (quoted s)
  | emptyArray : Printed (.array []) ['[', ']']
  | array {v : Value} {rest : List Value} {before text : List Char} (hbefore : Spaces before)
      (h : PrintedItems v rest text) : Printed (.array (v :: rest)) ('[' :: (before ++ text))
  | emptyObject : Printed (.object []) ['\x7b', '\x7d']
  | object {m : String × Value} {rest : List (String × Value)} {before text : List Char}
      (hbefore : Spaces before) (h : PrintedMembers m rest text) :
      Printed (.object (m :: rest)) ('\x7b' :: (before ++ text))

/-- The texts from the first item of an array to its closing bracket. -/
inductive PrintedItems : Value → List Value → List Char → Prop
  | last {v : Value} {text after : List Char} (h : Printed v text) (hafter : Spaces after) :
      PrintedItems v [] (text ++ (after ++ [']']))
  | cons {v w : Value} {rest : List Value} {text before more : List Char} (h : Printed v text)
      (hbefore : Spaces before) (hmore : PrintedItems w rest more) :
      PrintedItems v (w :: rest) (text ++ ',' :: (before ++ more))

/-- The texts from the first member of an object to its closing brace. -/
inductive PrintedMembers : String × Value → List (String × Value) → List Char → Prop
  | last {k : String} {v : Value} {between text after : List Char} (hbetween : Spaces between)
      (h : Printed v text) (hafter : Spaces after) :
      PrintedMembers (k, v) [] (quoted k ++ ':' :: (between ++ (text ++ (after ++ ['\x7d']))))
  | cons {k : String} {v : Value} {m : String × Value} {rest : List (String × Value)}
      {between text before more : List Char} (hbetween : Spaces between) (h : Printed v text)
      (hbefore : Spaces before) (hmore : PrintedMembers m rest more) :
      PrintedMembers (k, v) (m :: rest)
        (quoted k ++ ':' :: (between ++ (text ++ ',' :: (before ++ more))))
end

section Reading

variable {before cs rest text : List Char}

theorem skipSpace_append (h : Spaces before) (cs : List Char) :
    skipSpace (before ++ cs) = skipSpace cs :=
  List.dropWhile_append_of_pos h

theorem skipSpace_cons {c : Char} (h : isSpace c = false) (cs : List Char) :
    skipSpace (c :: cs) = c :: cs := by
  rw [skipSpace, List.dropWhile_cons_of_neg]
  simp [h]

theorem stops_of_mem {c : Char} (hc : c ∈ [',', ']', '\x7d']) (cs : List Char) :
    Stops (c :: cs) := by
  intro d hd
  obtain rfl : c = d := by simpa using hd
  exact .inr hc

theorem stops_of_spaces (h : Spaces before) {c : Char} (hc : c ∈ [',', ']', '\x7d'])
    (cs : List Char) : Stops (before ++ c :: cs) := by
  cases before with
  | nil => exact stops_of_mem hc cs
  | cons b before =>
      intro d hd
      obtain rfl : b = d := by simpa using hd
      exact .inl (h b List.mem_cons_self)

theorem numeral_head {c : Char} (h : c = '-' ∨ c.isDigit = true) :
    isSpace c = false ∧ c ∉ ['n', 't', 'f', '"', '[', ']', '\x7b', '\x7d'] := by
  have hne {d : Char} (hd : d.isDigit = false) (hminus : d ≠ '-') : c ≠ d := by
    rintro rfl
    rcases h with rfl | hdigit
    · exact hminus rfl
    · rw [hd] at hdigit
      cases hdigit
  constructor
  · simp only [isSpace, Bool.or_eq_false_iff, beq_eq_false_iff_ne]
    exact ⟨⟨⟨hne rfl (by decide), hne rfl (by decide)⟩, hne rfl (by decide)⟩, hne rfl (by decide)⟩
  · intro hmem
    have hall : ['n', 't', 'f', '"', '[', ']', '\x7b', '\x7d'].all
        (fun d => !d.isDigit && d != '-') = true := rfl
    obtain ⟨hd, hminus⟩ : c.isDigit = false ∧ c ≠ '-' := by
      simpa using List.all_eq_true.mp hall c hmem
    exact hne hd hminus rfl

/-- A value starts with a character that neither is white space nor closes an array. -/
theorem head_of_printed {v : Value} (h : Printed v text) :
    ∃ c tail, text = c :: tail ∧ isSpace c = false ∧ c ≠ ']' := by
  cases h with
  | number hback =>
      obtain ⟨numeral, hnumeral, _⟩ := hback
      obtain ⟨c, tail, htext, hc⟩ := head_of_numeral? hnumeral
      obtain ⟨hspace, hnot⟩ := numeral_head hc
      refine ⟨c, tail, htext, hspace, ?_⟩
      rintro rfl
      exact hnot (by decide)
  | bool b => cases b <;> exact ⟨_, _, rfl, rfl, by decide⟩
  | _ => exact ⟨_, _, rfl, rfl, by decide⟩

theorem quoted_append (k : String) (cs : List Char) :
    quoted k ++ cs = '"' :: (k.toList.flatMap escapeChar ++ '"' :: cs) := by
  simp [quoted]

theorem head_of_printedItems {v : Value} {vs : List Value} (h : PrintedItems v vs text) :
    ∃ c tail, text = c :: tail ∧ isSpace c = false ∧ c ≠ ']' := by
  cases h with
  | last h hafter =>
      obtain ⟨c, tail, rfl, hc⟩ := head_of_printed h
      exact ⟨c, _, rfl, hc⟩
  | cons h hbefore hmore =>
      obtain ⟨c, tail, rfl, hc⟩ := head_of_printed h
      exact ⟨c, _, rfl, hc⟩

theorem head_of_printedMembers {m : String × Value} {ms : List (String × Value)}
    (h : PrintedMembers m ms text) : ∃ tail, text = '"' :: tail := by
  cases h <;> exact ⟨_, rfl⟩

variable (real : Numeral → Option Double)

theorem readValue_append (h : Spaces before) (fuel : Nat) (cs : List Char) :
    readValue real fuel (before ++ cs) = readValue real fuel cs := by
  cases fuel with
  | zero => simp only [readValue]
  | succ fuel => simp only [readValue, skipSpace_append h]

theorem readItems_append (h : Spaces before) (fuel : Nat) (cs : List Char) :
    readItems real fuel (before ++ cs) = readItems real fuel cs := by
  cases fuel with
  | zero => simp only [readItems]
  | succ fuel => simp only [readItems, readValue_append real h]

theorem readMembers_append (h : Spaces before) (fuel : Nat) (cs : List Char) :
    readMembers real fuel (before ++ cs) = readMembers real fuel cs := by
  cases fuel with
  | zero => simp only [readMembers]
  | succ fuel => simp only [readMembers, skipSpace_append h]

theorem readValue_of_numeral? {n : Numeral} (h : numeral? cs = some (n, rest)) (fuel : Nat) :
    readValue real (fuel + 1) cs = (.number (Number.ofNumeral? real n), rest) := by
  obtain ⟨c, tail, rfl, hc⟩ := head_of_numeral? h
  obtain ⟨hspace, hnot⟩ := numeral_head hc
  simp only [List.mem_cons, List.not_mem_nil, or_false, not_or] at hnot
  rw [readValue, skipSpace_cons hspace]
  split
  all_goals simp_all

theorem readValue_array (hbefore : Spaces before) {c : Char} (hspace : isSpace c = false)
    (hc : c ≠ ']') (fuel : Nat) (tail : List Char) :
    readValue real (fuel + 1) ('[' :: (before ++ c :: tail)) =
      (.array (readItems real fuel (c :: tail)).1, (readItems real fuel (c :: tail)).2) := by
  rw [readValue, skipSpace_cons rfl]
  simp only [skipSpace_append hbefore, skipSpace_cons hspace]
  split
  · rename_i heq
    exact absurd (List.cons.inj heq).1 hc
  · rfl

theorem readValue_object (hbefore : Spaces before) (fuel : Nat) (tail : List Char) :
    readValue real (fuel + 1) ('\x7b' :: (before ++ '"' :: tail)) =
      (.object (readMembers real fuel ('"' :: tail)).1,
        (readMembers real fuel ('"' :: tail)).2) := by
  rw [readValue, skipSpace_cons rfl]
  simp only [skipSpace_append hbefore]
  rfl

end Reading

/-- The reader finds a printed value with every fuel that suffices for its characters. -/
def FindsValue (fuel : Nat) : Prop :=
  ∀ (v : Value) (text rest : List Char), Printed v text → Stops rest →
    2 * text.length ≤ fuel + 1 →
    readValue Numeral.byScaling? fuel (text ++ rest) = (v.toOutline, rest)

def FindsItems (fuel : Nat) : Prop :=
  ∀ (v : Value) (vs : List Value) (text rest : List Char), PrintedItems v vs text →
    2 * text.length ≤ fuel →
    readItems Numeral.byScaling? fuel (text ++ rest) = (Value.toItems (v :: vs), rest)

def FindsMembers (fuel : Nat) : Prop :=
  ∀ (m : String × Value) (ms : List (String × Value)) (text rest : List Char),
    PrintedMembers m ms text → 2 * text.length ≤ fuel →
    readMembers Numeral.byScaling? fuel (text ++ rest) = (Value.toMembers (m :: ms), rest)

theorem findsValue_succ {fuel : Nat} (hitems : FindsItems fuel) (hmembers : FindsMembers fuel) :
    FindsValue (fuel + 1) := by
  intro v text rest h hrest hfuel
  cases h with
  | null => rfl
  | bool b => cases b <;> rfl
  | number hback =>
      obtain ⟨numeral, hnumeral, hvalue⟩ := hback
      rw [readValue_of_numeral? _ (numeral?_append hrest hnumeral), hvalue]
      rfl
  | string s =>
      have hread : string? (s.toList.flatMap escapeChar ++ ['"'] ++ rest) =
          some (some s, rest) := by
        rw [List.append_assoc]
        exact string?_quoted s rest
      rw [readValue, quoted, List.cons_append, List.cons_append, skipSpace_cons rfl]
      simp only [hread]
      rfl
  | emptyArray => rfl
  | @array v vs before text hbefore h =>
      obtain ⟨c, tail, htext, hspace, hc⟩ := head_of_printedItems h
      have hread := hitems v vs text rest h (by simp at hfuel; omega)
      rw [htext, List.cons_append] at hread
      rw [htext, List.cons_append, List.append_assoc, List.cons_append,
        readValue_array _ hbefore hspace hc, hread]
      rfl
  | emptyObject => rfl
  | @object m ms before text hbefore h =>
      obtain ⟨tail, htext⟩ := head_of_printedMembers h
      have hread := hmembers m ms text rest h (by simp at hfuel; omega)
      rw [htext, List.cons_append] at hread
      rw [htext, List.cons_append, List.append_assoc, List.cons_append,
        readValue_object _ hbefore, hread]
      rfl

theorem findsItems_succ {fuel : Nat} (hvalue : FindsValue fuel) (hitems : FindsItems fuel) :
    FindsItems (fuel + 1) := by
  intro v vs text rest h hfuel
  cases h with
  | @last v text after h hafter =>
      have hread := hvalue v text (after ++ ']' :: rest) h (stops_of_spaces hafter (by simp) rest)
        (by simp at hfuel; omega)
      rw [readItems, List.append_assoc, List.append_assoc, List.singleton_append, hread]
      simp only [skipSpace_append hafter, skipSpace_cons (c := ']') rfl]
      rfl
  | @cons v w ws text before more h hbefore hmore =>
      have hread := hvalue v text (',' :: (before ++ (more ++ rest))) h
        (stops_of_mem (by simp) _) (by simp at hfuel; omega)
      have hnext := hitems w ws more rest hmore (by simp at hfuel; omega)
      rw [readItems, List.append_assoc, List.cons_append, List.append_assoc, hread]
      simp only [skipSpace_cons (c := ',') rfl, readItems_append _ hbefore, hnext]
      rfl

theorem findsMembers_succ {fuel : Nat} (hvalue : FindsValue fuel) (hmembers : FindsMembers fuel) :
    FindsMembers (fuel + 1) := by
  intro m ms text rest h hfuel
  cases h with
  | @last k v between text after hbetween h hafter =>
      have hread := hvalue v text (after ++ '\x7d' :: rest) h
        (stops_of_spaces hafter (by simp) rest) (by simp at hfuel; omega)
      simp only [List.append_assoc, List.cons_append, List.nil_append]
      rw [readMembers, quoted_append, skipSpace_cons rfl]
      simp only [string?_quoted, skipSpace_cons (c := ':') rfl, readValue_append _ hbetween, hread,
        skipSpace_append hafter, skipSpace_cons (c := '\x7d') rfl]
      rfl
  | @cons k v m ms between text before more hbetween h hbefore hmore =>
      have hread := hvalue v text (',' :: (before ++ (more ++ rest))) h
        (stops_of_mem (by simp) _) (by simp at hfuel; omega)
      have hnext := hmembers m ms more rest hmore (by simp at hfuel; omega)
      simp only [List.append_assoc, List.cons_append]
      rw [readMembers, quoted_append, skipSpace_cons rfl]
      simp only [string?_quoted, skipSpace_cons (c := ':') rfl, readValue_append _ hbetween, hread,
        skipSpace_cons (c := ',') rfl, readMembers_append _ hbefore, hnext]
      rfl

theorem finds (fuel : Nat) : FindsValue fuel ∧ FindsItems fuel ∧ FindsMembers fuel := by
  induction fuel with
  | zero =>
      refine ⟨?_, ?_, ?_⟩
      · intro v text rest h hrest hfuel
        obtain ⟨c, tail, rfl, -⟩ := head_of_printed h
        simp at hfuel
        omega
      · intro v vs text rest h hfuel
        obtain ⟨c, tail, rfl, -⟩ := head_of_printedItems h
        simp at hfuel
      · intro m ms text rest h hfuel
        obtain ⟨tail, rfl⟩ := head_of_printedMembers h
        simp at hfuel
  | succ fuel ih =>
      obtain ⟨hvalue, hitems, hmembers⟩ := ih
      exact ⟨findsValue_succ hitems hmembers, findsItems_succ hvalue hitems,
        findsMembers_succ hvalue hmembers⟩

/-- A text that was printed for a value is read as a document of this value. -/
theorem read_printed {v : Value} {text : List Char} (h : Printed v text) :
    Document.read (String.ofList text) = ⟨v.toOutline, true⟩ := by
  have hstops : Stops [] := nofun
  have hread := (finds (2 * text.length + 2)).1 v text [] h hstops (by omega)
  rw [List.append_nil] at hread
  rw [Document.read, Document.readWith, String.toList_ofList, hread]
  rfl

mutual
/-- Every number in the value is read back from its text. -/
def NumbersReadBack : Value → Prop
  | .number n => ReadsBack n
  | .array items => ItemsReadBack items
  | .object members => MembersReadBack members
  | _ => True

def ItemsReadBack : List Value → Prop
  | [] => True
  | v :: rest => NumbersReadBack v ∧ ItemsReadBack rest

def MembersReadBack : List (String × Value) → Prop
  | [] => True
  | (_, v) :: rest => NumbersReadBack v ∧ MembersReadBack rest
end

theorem spaces_nil : Spaces [] :=
  List.forall_mem_nil _

mutual
theorem printed_compact : (v : Value) → NumbersReadBack v → Printed v v.compactChars
  | .null, _ => .null
  | .bool b, _ => .bool b
  | .number _, h => .number h
  | .string s, _ => .string s
  | .array [], _ => .emptyArray
  | .array (v :: rest), h => @Printed.array v rest [] _ spaces_nil (printedItems_compact v rest h)
  | .object [], _ => .emptyObject
  | .object (m :: rest), h =>
      @Printed.object m rest [] _ spaces_nil (printedMembers_compact m rest h)
termination_by v => sizeOf v

theorem printedItems_compact : (v : Value) → (rest : List Value) → ItemsReadBack (v :: rest) →
    PrintedItems v rest (compactItems (v :: rest) ++ [']'])
  | v, [], h => .last (printed_compact v h.1) spaces_nil
  | v, w :: rest, h => by
      have hmore := printedItems_compact w rest h.2
      have hcons := PrintedItems.cons (printed_compact v h.1) spaces_nil hmore
      simpa [compactItems] using hcons
termination_by v rest => sizeOf (v :: rest)

theorem printedMembers_compact : (m : String × Value) → (rest : List (String × Value)) →
    MembersReadBack (m :: rest) →
    PrintedMembers m rest (compactMembers (m :: rest) ++ ['\x7d'])
  | (k, v), [], h => by
      have hlast := @PrintedMembers.last k v [] _ [] spaces_nil (printed_compact v h.1) spaces_nil
      simpa [compactMembers] using hlast
  | (k, v), m :: rest, h => by
      have hmore := printedMembers_compact m rest h.2
      have hcons := @PrintedMembers.cons k v m rest [] _ [] _ spaces_nil (printed_compact v h.1)
        spaces_nil hmore
      simpa [compactMembers] using hcons
termination_by m rest => sizeOf (m :: rest)
end

theorem spaces_newLine (level : Nat) : Spaces (newLine level) := by
  intro c hc
  rcases List.mem_cons.mp hc with rfl | hc
  · rfl
  · rw [List.eq_of_mem_replicate hc]
    rfl

theorem spaces_blank : Spaces [' '] :=
  List.forall_mem_singleton.mpr rfl

mutual
theorem printed_indented (level : Nat) :
    (v : Value) → NumbersReadBack v → Printed v (v.indentedChars level)
  | .null, _ => .null
  | .bool b, _ => .bool b
  | .number _, h => .number h
  | .string s, _ => .string s
  | .array [], _ => .emptyArray
  | .array (v :: rest), h => by
      obtain ⟨text, heq, hitems⟩ := printedItems_indented (level + 1) level v rest h
      have harray := Printed.array (spaces_newLine (level + 1)) hitems
      rw [← heq] at harray
      simpa [indentedChars] using harray
  | .object [], _ => .emptyObject
  | .object (m :: rest), h => by
      obtain ⟨text, heq, hmembers⟩ := printedMembers_indented (level + 1) level m rest h
      have hobject := Printed.object (spaces_newLine (level + 1)) hmembers
      rw [← heq] at hobject
      simpa [indentedChars] using hobject
termination_by v => sizeOf v

/-- The items stand one level deeper than the bracket that closes them. -/
theorem printedItems_indented (level closing : Nat) :
    (v : Value) → (rest : List Value) → ItemsReadBack (v :: rest) →
    ∃ text, indentedItems level (v :: rest) ++ newLine closing ++ [']'] = newLine level ++ text ∧
      PrintedItems v rest text
  | v, [], h => by
      refine ⟨_, ?_, .last (printed_indented level v h.1) (spaces_newLine closing)⟩
      simp [indentedItems]
  | v, w :: rest, h => by
      obtain ⟨more, heq, hmore⟩ := printedItems_indented level closing w rest h.2
      refine ⟨_, ?_, .cons (printed_indented level v h.1) (spaces_newLine level) hmore⟩
      rw [← heq]
      simp [indentedItems]
termination_by v rest => sizeOf (v :: rest)

theorem printedMembers_indented (level closing : Nat) :
    (m : String × Value) → (rest : List (String × Value)) → MembersReadBack (m :: rest) →
    ∃ text, indentedMembers level (m :: rest) ++ newLine closing ++ ['\x7d'] =
      newLine level ++ text ∧ PrintedMembers m rest text
  | (k, v), [], h => by
      refine ⟨_, ?_, .last spaces_blank (printed_indented level v h.1) (spaces_newLine closing)⟩
      simp [indentedMembers]
  | (k, v), m :: rest, h => by
      obtain ⟨more, heq, hmore⟩ := printedMembers_indented level closing m rest h.2
      refine ⟨_, ?_, .cons spaces_blank (printed_indented level v h.1) (spaces_newLine level) hmore⟩
      rw [← heq]
      simp [indentedMembers]
termination_by m rest => sizeOf (m :: rest)
end

end LintGate.Proofs.PrintedJson
