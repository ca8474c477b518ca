import LintGate.File.Fault
import LintGate.Issue.Document
import LintGate.Text.Utf8

/-!
Rule profiles: which findings count, and the severity and debt they get. A profile has at most one
rule for each key. A finding whose rule is missing or disabled does not count.
-/

namespace LintGate

open Json

/-- What a profile says of the findings with one rule id. -/
structure Rule where
  key : String
  severity : Severity
  debt : Option Double
  enabled : Bool
  deriving DecidableEq

/-- Equality of rules; debts are compared as numbers. -/
def Rule.same (a b : Rule) : Bool :=
  a.key == b.key && a.severity == b.severity && a.enabled == b.enabled &&
    match a.debt, b.debt with
    | none, none => true
    | some x, some y => x.same y
    | _, _ => false

/-- The rules for one language, no two of them with the same key. -/
structure Profile where
  language : String
  rules : List Rule
  distinct : (rules.map (·.key)).Nodup

namespace Profile

/-- No rules. -/
def empty (language : String) : Profile :=
  ⟨language, [], by simp⟩

/-- The rule with this key, enabled or not. -/
def find? (p : Profile) (key : String) : Option Rule :=
  p.rules.find? (·.key == key)

/-- The rules with `r` in the place of the rule with its key, or at the end. -/
def put (r : Rule) : List Rule → List Rule
  | [] => [r]
  | s :: rest => if s.key = r.key then r :: rest else s :: put r rest

theorem mem_keys_put {r : Rule} {rules : List Rule} {key : String} :
    key ∈ (put r rules).map (·.key) ↔ key = r.key ∨ key ∈ rules.map (·.key) := by
  induction rules with
  | nil => simp [put]
  | cons s rest ih =>
    by_cases h : s.key = r.key
    · simp [put, h]
    · simp only [put, h, if_false, List.map_cons, List.mem_cons, ih]
      grind

theorem nodup_keys_put {r : Rule} {rules : List Rule} (h : (rules.map (·.key)).Nodup) :
    ((put r rules).map (·.key)).Nodup := by
  induction rules with
  | nil => simp [put]
  | cons s rest ih =>
    rw [List.map_cons, List.nodup_cons] at h
    by_cases hk : s.key = r.key
    · rw [put, if_pos hk, List.map_cons, List.nodup_cons]
      exact ⟨hk ▸ h.1, h.2⟩
    · rw [put, if_neg hk, List.map_cons, List.nodup_cons]
      exact ⟨fun hm => (mem_keys_put.1 hm).elim hk h.1, ih h.2⟩

/-- The profile with this rule, which replaces one of the same key. -/
def insert (p : Profile) (r : Rule) : Profile :=
  ⟨p.language, put r p.rules, nodup_keys_put p.distinct⟩

/-- How many rules there are, disabled ones included. -/
def size (p : Profile) : Nat :=
  p.rules.length

/-- The enabled rule for a rule id. -/
def resolve (p : Profile) (ruleId : String) : Option Rule :=
  (p.find? ruleId).filter (·.enabled)

/-- The finding with the severity and the debt of its rule, if it counts. -/
def annotate (p : Profile) (i : Issue) : Option Issue :=
  (p.resolve i.ruleId).map fun r => { i with severity := some r.severity, debt := r.debt }

/-- The same language and the same rules, in whatever order they came. -/
def same (a b : Profile) : Bool :=
  a.language == b.language && a.size == b.size &&
    a.rules.all fun r => (b.find? r.key).any r.same

/-- Why a profile cannot be had. -/
inductive Error
  | blankKey
  | duplicateKey (key : String)
  | document (fault : Fault)
  | unreadable (fault : FileFault)
  deriving DecidableEq, Repr

def Error.message : Error → String
  | .blankKey => "Invalid profile: rule with empty key"
  | .duplicateKey key => s!"Invalid profile: duplicate rule key: {key}"
  | .document fault => fault.message
  | .unreadable fault => s!"I/O error: {fault.message}"

/-- The fields of a rule that have been read. -/
structure RuleParts where
  key : Option String := none
  severity : Option Severity := none
  debt : Option (Option Double) := none
  enabled : Option Bool := none

def ruleRecord : Record RuleParts where
  title := "struct Rule"
  fields := [
    .of "key" (·.key) (fun p v => { p with key := v }) Outline.readString false false,
    .of "severity" (·.severity) (fun p v => { p with severity := v }) Severity.read true true,
    .of "debt" (·.debt) (fun p v => { p with debt := v })
      (Outline.readOption Outline.readDouble) true true,
    .of "enabled" (·.enabled) (fun p v => { p with enabled := v }) Outline.readBool true true]

/-- The rule with these parts: a rule is enabled, of the default severity and without debt unless
it says otherwise. -/
def ruleOfParts (p : RuleParts) : Rule where
  key := p.key.getD ""
  severity := p.severity.getD .default
  debt := p.debt.getD none
  enabled := p.enabled.getD true

/-- The fields of a profile that have been read. -/
structure Parts where
  language : Option String := none
  rules : Option (List Rule) := none

def record : Record Parts where
  title := "struct ProfileDocument"
  fields := [
    .of "language" (·.language) (fun p v => { p with language := v }) Outline.readString true true,
    .of "rules" (·.rules) (fun p v => { p with rules := v })
      (Outline.readList fun v => (ruleRecord.read .text {} v).map ruleOfParts) true true]

/-- The profile with the listed rules added in their order. -/
def insertAll (p : Profile) : List Rule → Except Error Profile
  | [] => .ok p
  | r :: rest =>
    if Text.isBlankText r.key.toList then .error .blankKey
    else if (p.find? r.key).isSome then .error (.duplicateKey r.key)
    else (p.insert r).insertAll rest

/-- The profile a JSON text holds. -/
def ofJson (text : String) : Except Error Profile :=
  match Document.decode (record.read .text {}) text with
  | .error fault => .error (.document fault)
  | .ok parts => (empty (parts.language.getD "")).insertAll (parts.rules.getD [])

/-- The profile of a file with these bytes. -/
def ofBytes (bytes : List UInt8) : Except Error Profile :=
  match Text.Utf8.decode? bytes with
  | some text => ofJson text
  | none => .error (.unreadable .notText)

end Profile

end LintGate
