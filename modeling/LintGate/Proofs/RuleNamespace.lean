import LintGate.Linter.Basic

/-!
Rule ids tell the tools apart. Whatever a tool prints, the rule id of a finding starts with the key
of the tool and its separator, and the key is read back from it: no two tools share a rule id.
-/

namespace LintGate.Proofs.RuleNamespace

/-- The characters that end the key in a rule id. -/
def endsKey (c : Char) : Bool :=
  c == '.' || c == ':'

theorem repositoryKey_eq (i : Issue) :
    i.repositoryKey = String.ofList (Text.upTo endsKey i.ruleId.toList) :=
  rfl

theorem toList_ruleId (t : Tool) (code : String) :
    (t.ruleId code).toList = t.key.toList ++ t.separator :: code.toList := by
  simp [Tool.ruleId, Char.toString_eq_singleton]

theorem not_endsKey_of_mem_key (t : Tool) : ∀ c ∈ t.key.toList, endsKey c = false := by
  have hkey : t.key.toList.all (fun c => !endsKey c) = true := by
    cases t <;> rfl
  simpa using hkey

theorem endsKey_separator (t : Tool) : endsKey t.separator = true := by
  cases t <;> rfl

/-- The key of a tool ends where the separator stands, whatever the code is. -/
theorem upTo_ruleId (t : Tool) (code : String) :
    Text.upTo endsKey (t.ruleId code).toList = t.key.toList := by
  have hkey : ∀ c ∈ t.key.toList, (!endsKey c) = true := by
    intro c hc
    rw [not_endsKey_of_mem_key t c hc]
    rfl
  rw [toList_ruleId, Text.upTo, List.takeWhile_append_of_pos hkey, List.takeWhile_cons_of_neg,
    List.append_nil]
  simp [endsKey_separator]

theorem key_injective {t u : Tool} (h : t.key = u.key) : t = u := by
  cases t <;> cases u <;> first | rfl | exact absurd h (by decide)

/-- Tool and code are both read back from a rule id. -/
theorem ruleId_injective {t u : Tool} {code code' : String} (h : t.ruleId code = u.ruleId code') :
    t = u ∧ code = code' := by
  have hkey : t.key.toList = u.key.toList := by
    rw [← upTo_ruleId t code, h, upTo_ruleId]
  obtain rfl : t = u := key_injective (String.toList_injective hkey)
  refine ⟨rfl, String.toList_injective ?_⟩
  have hrest := congrArg String.toList h
  rw [toList_ruleId, toList_ruleId] at hrest
  exact (List.cons.inj (List.append_cancel_left hrest)).2

/-- A finding as it comes from the tool: its rule id lies in the namespace of the tool, and nothing
has been said about it by a profile. -/
structure Namespaced (t : Tool) (i : Issue) : Prop where
  starts : t.key.toList ++ [t.separator] <+: i.ruleId.toList
  repositoryKey : i.repositoryKey = t.key
  severity : i.severity = none
  debt : i.debt = none

theorem namespaced_reported (t : Tool) (code message : String) (line : UInt32)
    (component : String) : Namespaced t (.reported (t.ruleId code) message line component) where
  starts := ⟨code.toList, by simp [Issue.reported, toList_ruleId]⟩
  repositoryKey := by
    rw [repositoryKey_eq]
    exact (congrArg String.ofList (upTo_ruleId t code)).trans String.ofList_toList
  severity := rfl
  debt := rfl

/-- All findings of a reading are the tool's own. -/
def Owns (t : Tool) (r : Reading) : Prop :=
  ∀ i ∈ r.issues, Namespaced t i

section

variable {t : Tool}

theorem owns_skip (entry : String) (reason : SkipReason) : Owns t (.skip entry reason) :=
  List.forall_mem_nil _

theorem owns_empty : Owns t {} :=
  List.forall_mem_nil _

theorem owns_found (code message : String) (line : UInt32) (component : String) :
    Owns t (.found (.reported (t.ruleId code) message line component)) :=
  List.forall_mem_singleton.mpr (namespaced_reported t code message line component)

theorem owns_concat {α : Type} {entries : List α} {convert : α → Reading}
    (h : ∀ entry, Owns t (convert entry)) : Owns t (.concat (entries.map convert)) := by
  intro i hi
  obtain ⟨r, hr, hmem⟩ := List.mem_flatMap.mp hi
  obtain ⟨entry, _, rfl⟩ := List.mem_map.mp hr
  exact h entry i hmem

/-- Reading line by line, in whatever grammar, gives the rule ids that are made for the tool. -/
theorem owns_readAll {grammar : List Char → Except SkipReason FindingLine}
    {ruleId : String → String} (h : ∀ rule, ∃ code, ruleId rule = t.ruleId code)
    (lines : List String) : Owns t (FindingLine.readAll grammar ruleId lines) := by
  refine owns_concat fun line => ?_
  split
  · rename_i found _
    obtain ⟨code, hcode⟩ := h found.rule
    rw [hcode]
    exact owns_found code _ _ _
  · exact owns_skip _ _

theorem owns_report {convert : Markup.Node → Reading} (h : ∀ record, Owns t (convert record))
    (title record : String) (lines : List String) :
    Owns t (Report.read title record convert lines) := by
  unfold Report.read
  split
  · exact owns_empty
  · split
    · exact owns_skip _ _
    · split
      · exact owns_skip _ _
      · exact owns_concat h

end

theorem owns_cppcheck (record : Markup.Node) : Owns .cppcheck (Report.Cppcheck.convert record) := by
  unfold Report.Cppcheck.convert
  split
  · exact owns_skip _ _
  · split
    · exact owns_empty
    · split
      · exact owns_skip _ _
      · exact owns_found _ _ _ _

theorem owns_ratsLine (message name : String) (line : Markup.Node) :
    Owns .rats (Report.Rats.convertLine message name line) := by
  unfold Report.Rats.convertLine
  split
  · exact owns_found _ _ _ _
  · exact owns_skip _ _

theorem owns_ratsFile (message : String) (file : Markup.Node) :
    Owns .rats (Report.Rats.convertFile message file) := by
  unfold Report.Rats.convertFile
  split
  · exact owns_skip _ _
  · exact owns_concat (owns_ratsLine message _)

theorem owns_rats (record : Markup.Node) : Owns .rats (Report.Rats.convert record) := by
  unfold Report.Rats.convert
  split
  · exact owns_concat (owns_ratsFile _)
  · exact owns_empty

/-- A key of its own for the tool `other` stands behind the separator, so it may hold anything. -/
theorem ruleId_eq (l : Linter) (rule : String) : ∃ code, l.ruleId rule = l.tool.ruleId code := by
  unfold Linter.ruleId
  split
  · exact ⟨_, rfl⟩
  · exact ⟨rule, rfl⟩

theorem owns_read (l : Linter) (lines : List String) : Owns l.tool (l.read lines) := by
  unfold Linter.read
  split
  · rename_i htool
    rw [htool]
    exact owns_report owns_cppcheck _ _ lines
  · rename_i htool
    rw [htool]
    exact owns_report owns_rats _ _ lines
  all_goals exact owns_readAll (ruleId_eq l) lines

/-- Findings with one rule id come from one tool. -/
theorem tool_eq_of_ruleId_eq {t u : Tool} {i j : Issue} (hi : Namespaced t i)
    (hj : Namespaced u j) (h : i.ruleId = j.ruleId) : t = u := by
  refine key_injective ?_
  rw [← hi.repositoryKey, ← hj.repositoryKey, repositoryKey_eq, repositoryKey_eq, h]

/-- Every finding a tool reports lies in the tool's own namespace, and the namespaces of two tools
have no rule id in common. -/
theorem read_namespaced :
    (∀ (l : Linter) (lines : List String), ∀ i ∈ (l.read lines).issues, Namespaced l.tool i) ∧
      (∀ (t u : Tool) (code code' : String), t.ruleId code = u.ruleId code' →
        t = u ∧ code = code') ∧
      ∀ (l l' : Linter) (lines lines' : List String), ∀ i ∈ (l.read lines).issues,
        ∀ j ∈ (l'.read lines').issues, i.ruleId = j.ruleId → l.tool = l'.tool := by
  refine ⟨owns_read, fun _ _ _ _ h => ruleId_injective h, ?_⟩
  intro l l' lines lines' i hi j hj h
  exact tool_eq_of_ruleId_eq (owns_read l lines i hi) (owns_read l' lines' j hj) h

/-- A tool with a key of its own that looks like rule ids of two tools. -/
def disguised : Linter :=
  .make .other { executable := Path.ofString "lint" } (some "vera++:x.y z")

/-- A tool without one. -/
def undisguised : Linter :=
  .make .other { executable := Path.ofString "lint" } none

/-- What the first prints for one rule, and the second for another, is one finding. -/
def disguisedIssue : Issue :=
  .reported "other.vera++:x.y z.line/length" "too long" 7 "/w/a.cpp"

theorem read_namespaced_disguised :
    disguisedIssue ∈ (disguised.read ["/w/a.cpp(7): too long [line/length]"]).issues ∧
      disguisedIssue ∈
        (undisguised.read ["/w/a.cpp(7): too long [vera++:x.y z.line/length]"]).issues ∧
      disguised.ruleId "line/length" = Tool.other.ruleId "vera++:x.y z.line/length" ∧
      Namespaced .other disguisedIssue ∧ "vera++:x.y z.line/length" = "vera++:x.y z" ++ "." ++
        "line/length" ∧ disguised.tool = undisguised.tool := by
  have hread :
      disguisedIssue ∈ (disguised.read ["/w/a.cpp(7): too long [line/length]"]).issues := by
    decide +kernel
  have hread' : disguisedIssue ∈
      (undisguised.read ["/w/a.cpp(7): too long [vera++:x.y z.line/length]"]).issues := by
    decide +kernel
  have hcode : disguised.ruleId "line/length" = Tool.other.ruleId "vera++:x.y z.line/length" := by
    decide +kernel
  exact ⟨hread, hread', hcode, read_namespaced.1 disguised _ _ hread,
    (read_namespaced.2.1 .other .other _ _ hcode.symm).2,
    read_namespaced.2.2 disguised undisguised _ _ _ hread _ hread' rfl⟩

end LintGate.Proofs.RuleNamespace
