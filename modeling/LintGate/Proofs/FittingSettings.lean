import LintGate.Config.Basic
import LintGate.Proofs.DocumentMembers
import LintGate.Proofs.SchemaFits

/-!
Settings of a tool that fit the schema are decoded, but for a time limit that is no integer of 64
bits.
-/

namespace LintGate.Proofs.FittingSettings

open LintGate.Json
open LintGate.Proofs.SortedEntries
open LintGate.Proofs.SchemaFits
open LintGate.Proofs.DocumentMembers

/-- The properties of every tool, and the key that one of them may have besides. -/
def keyedProperties : List (String × Schema) :=
  Config.toolProperties ++ [("key", .string 0)]

theorem fits_keyed {v : Value} (h : Fits Config.toolSchema v) : Fits Config.keyedToolSchema v := by
  obtain ⟨members, rfl, hmembers, hrequired⟩ := fits_object_iff.mp h
  refine fits_object_iff.mpr ⟨members, rfl, ?_, hrequired⟩
  intro m hm
  obtain ⟨schema, hget, hfits⟩ := hmembers m hm
  exact ⟨schema, by rw [get?_append, hget, Option.some_or], hfits⟩

section Members

variable {v : Value}

theorem exists_string {minLength : Nat} (h : Fits (.string minLength) v) : ∃ s, v = .string s := by
  cases h
  exact ⟨_, rfl⟩

theorem exists_bool (h : Fits .boolean v) : ∃ b, v = .bool b := by
  cases h
  exact ⟨_, rfl⟩

theorem exists_limit (h : Fits .positiveInteger v) :
    (∃ n : UInt64, 1 ≤ n.toNat ∧ v = .number (.natural n)) ∨ ∃ x, v = .number (.real x) := by
  cases h with
  | natural h => exact .inl ⟨_, h, rfl⟩
  | real hk hx => exact .inr ⟨_, rfl⟩

theorem exists_stream (h : Fits (.either Stream.stdout.name Stream.stderr.name) v) :
    ∃ x : Stream, v = .string x.name := by
  cases h with
  | either h =>
      rcases h with rfl | rfl
      · exact ⟨.stdout, rfl⟩
      · exact ⟨.stderr, rfl⟩

theorem exists_entries {members : List (String × Value)}
    (h : ∀ m ∈ members, ∃ s, m.2 = .string s) :
    ∃ entries : List (String × String), members = entries.map fun e => (e.1, .string e.2) := by
  induction members with
  | nil => exact ⟨[], rfl⟩
  | cons m rest ih =>
      obtain ⟨name, v⟩ := m
      obtain ⟨s, hs⟩ := h _ List.mem_cons_self
      obtain ⟨entries, rfl⟩ := ih fun m hm => h m (List.mem_cons_of_mem _ hm)
      obtain rfl : v = .string s := hs
      exact ⟨(name, s) :: entries, rfl⟩

theorem readEntries?_toMembers (entries : List (String × String)) :
    Environment.readEntries? (Value.toMembers (entries.map fun e => (e.1, .string e.2))) =
      some entries := by
  induction entries with
  | nil => rfl
  | cons e rest ih =>
      rw [List.map_cons, Value.toMembers, Value.toOutline, Environment.readEntries?, ih]
      rfl

/-- An environment in either form is read, and written as it was. -/
theorem read_environment (h : Fits .stringOrStrings v) (hv : Canonical v) :
    ∃ e, Environment.read v.toOutline = .ok e ∧ e.toValue = v := by
  cases h with
  | text s => exact ⟨.inline s, rfl, rfl⟩
  | texts h =>
      obtain ⟨entries, rfl⟩ := exists_entries h
      cases hv with
      | object hsorted hmembers =>
          have hentries : Sorted entries := List.pairwise_map.mp hsorted
          refine ⟨.map entries, ?_, rfl⟩
          rw [Value.toOutline, Environment.read, readEntries?_toMembers]
          simp only [ofEntries_of_sorted hentries]

theorem readUInt64_natural (n : UInt64) :
    Outline.readOption Outline.readUInt64 (Value.number (.natural n)).toOutline = .ok (some n) := by
  have hlt : n.toNat < UInt64.size := n.toNat_lt_size
  simp [Value.toOutline, Outline.readOption, Outline.readUInt64, Outline.readNatural, hlt,
    Except.map]

theorem readStream_name (x : Stream) :
    Outline.readOption ToolSettings.readStream (Value.string x.name).toOutline = .ok (some x) := by
  cases x <;> rfl

end Members

/-- What is read of the member with the name. -/
def found (read : Outline → Except Fault α) (name : String) (members : List (String × Value)) :
    Option α :=
  (Dictionary.get? name members).bind fun v => (read v.toOutline).toOption

/-- The parts of settings after these members. -/
def partsOf (members : List (String × Value)) : ToolSettings.Parts where
  executable := found ToolSettings.readPath "executable" members
  arguments := found Outline.readString "arguments" members
  environment := found Environment.read "environment" members
  workingDir := found (Outline.readOption ToolSettings.readPath) "workingDir" members
  timeout := found (Outline.readOption Outline.readUInt64) "timeoutMs" members
  stream := found (Outline.readOption ToolSettings.readStream) "stream" members
  enabled := found Outline.readBool "enabled" members

section Reading

variable {done rest members : List (String × Value)} {name k : String} {v : Value} {a : α}
  {read : Outline → Except Fault α}

theorem found_of_new (h : Dictionary.get? name done = none) : found read name done = none := by
  rw [found, h, Option.bind_none]

theorem found_same (h : Dictionary.get? name done = none) (hread : read v.toOutline = .ok a) :
    found read name (done ++ [(name, v)]) = some a := by
  rw [found, get?_append, h, get?_cons, if_pos rfl, Option.none_or, Option.bind_some, hread]
  rfl

theorem found_other (h : k ≠ name) : found read name (done ++ [(k, v)]) = found read name done := by
  rw [found, get?_append, get?_cons, if_neg h, get?_nil, Option.or_none, found]

theorem readMembers_known {get : ToolSettings.Parts → Option α}
    {set : ToolSettings.Parts → Option α → ToolSettings.Parts} {optional trailing : Bool}
    (hfind : ToolSettings.record.fields.find? (·.name == k) =
      some (.of k get set read optional trailing))
    (hget : get (partsOf done) = none) (hread : read v.toOutline = .ok a)
    (hset : set (partsOf done) (some a) = partsOf (done ++ [(k, v)])) (more : Members) :
    ToolSettings.record.readMembers (.member (some k) v.toOutline more) (partsOf done) =
      ToolSettings.record.readMembers more (partsOf (done ++ [(k, v)])) := by
  refine readMembers_field hfind ?_ ?_ more
  · simp [Field.of, hget]
  · simp [Field.of, hread, Except.map, hset]

/-- A member that fits its schema is read, but for a time limit that is no integer. -/
theorem readMembers_fitting (hmember : Described keyedProperties (k, v)) (hv : Canonical v)
    (hnew : Dictionary.get? k done = none)
    (hlimit : ∀ x, (k, v) ≠ ("timeoutMs", .number (.real x))) (more : Members) :
    ToolSettings.record.readMembers (.member (some k) v.toOutline more) (partsOf done) =
      ToolSettings.record.readMembers more (partsOf (done ++ [(k, v)])) := by
  obtain ⟨schema, hget, hfits⟩ := hmember
  have hk : k ∈ keyedProperties.map (·.1) := List.mem_map_of_mem (mem_of_get? hget)
  simp only [keyedProperties, Config.toolProperties, List.map_cons, List.map_nil, List.cons_append,
    List.nil_append, List.mem_cons, List.not_mem_nil, or_false] at hk
  rcases hk with rfl | rfl | rfl | rfl | rfl | rfl | rfl | rfl
  · obtain rfl : Schema.string 1 = schema := Option.some.inj hget
    obtain ⟨s, rfl⟩ := exists_string hfits
    have hread : ToolSettings.readPath (Value.string s).toOutline = .ok (Path.ofString s) := rfl
    refine readMembers_known rfl (found_of_new hnew) hread ?_ more
    simp [partsOf, found_same hnew hread, found_other]
  · obtain rfl : Schema.string 0 = schema := Option.some.inj hget
    obtain ⟨s, rfl⟩ := exists_string hfits
    have hread : Outline.readString (Value.string s).toOutline = .ok s := rfl
    refine readMembers_known rfl (found_of_new hnew) hread ?_ more
    simp [partsOf, found_same hnew hread, found_other]
  · obtain rfl : Schema.stringOrStrings = schema := Option.some.inj hget
    obtain ⟨e, hread, -⟩ := read_environment hfits hv
    refine readMembers_known rfl (found_of_new hnew) hread ?_ more
    simp [partsOf, found_same hnew hread, found_other]
  · obtain rfl : Schema.string 0 = schema := Option.some.inj hget
    obtain ⟨s, rfl⟩ := exists_string hfits
    have hread : Outline.readOption ToolSettings.readPath (Value.string s).toOutline =
      .ok (some (Path.ofString s)) := rfl
    refine readMembers_known rfl (found_of_new hnew) hread ?_ more
    simp [partsOf, found_same hnew hread, found_other]
  · obtain rfl : Schema.positiveInteger = schema := Option.some.inj hget
    rcases exists_limit hfits with ⟨n, -, rfl⟩ | ⟨x, rfl⟩
    · have hread := readUInt64_natural n
      refine readMembers_known rfl (found_of_new hnew) hread ?_ more
      simp [partsOf, found_same hnew hread, found_other]
    · exact absurd rfl (hlimit x)
  · obtain rfl : Schema.either Stream.stdout.name Stream.stderr.name = schema :=
      Option.some.inj hget
    obtain ⟨x, rfl⟩ := exists_stream hfits
    have hread := readStream_name x
    refine readMembers_known rfl (found_of_new hnew) hread ?_ more
    simp [partsOf, found_same hnew hread, found_other]
  · obtain rfl : Schema.boolean = schema := Option.some.inj hget
    obtain ⟨b, rfl⟩ := exists_bool hfits
    have hread : Outline.readBool (Value.bool b).toOutline = .ok b := rfl
    refine readMembers_known rfl (found_of_new hnew) hread ?_ more
    simp [partsOf, found_same hnew hread, found_other]
  · obtain rfl : Schema.string 0 = schema := Option.some.inj hget
    obtain ⟨s, rfl⟩ := exists_string hfits
    have hparts : partsOf (done ++ [("key", .string s)]) = partsOf done := by
      simp [partsOf, found_other]
    rw [hparts]
    rfl

theorem readMembers_real (hnew : Dictionary.get? "timeoutMs" done = none) (x : Double)
    (more : Members) :
    ToolSettings.record.readMembers
        (.member (some "timeoutMs") (Value.number (.real x)).toOutline more) (partsOf done) =
      .error ((Outline.number (some (.real x))).mismatch "u64") := by
  refine readMembers_fault rfl ?_ rfl more
  simp [Field.of, partsOf, found_of_new hnew]

theorem get?_of_nodup (h : ((done ++ (k, v) :: rest).map (·.1)).Nodup) :
    Dictionary.get? k done = none := by
  rw [List.map_append, List.map_cons, List.nodup_append] at h
  rw [get?_eq_none_iff]
  intro e he
  exact h.2.2 e.1 (List.mem_map_of_mem he) k List.mem_cons_self

/-- All members are read where no time limit is a double. -/
theorem readMembers_run (hmembers : ∀ m ∈ rest, Described keyedProperties m ∧ Canonical m.2)
    (hnodup : ((done ++ rest).map (·.1)).Nodup)
    (hlimit : ∀ x, ("timeoutMs", .number (.real x)) ∉ rest) :
    ToolSettings.record.readMembers (Value.toMembers rest) (partsOf done) =
      ToolSettings.record.readMembers .closed (partsOf (done ++ rest)) := by
  induction rest generalizing done with
  | nil => rw [List.append_nil, Value.toMembers]
  | cons m rest ih =>
      obtain ⟨k, v⟩ := m
      obtain ⟨hmember, hv⟩ := hmembers _ List.mem_cons_self
      have hstep := readMembers_fitting hmember hv (get?_of_nodup hnodup)
        (fun x heq => hlimit x (heq ▸ List.mem_cons_self)) (Value.toMembers rest)
      have hrest := @ih (done ++ [(k, v)]) (fun m hm => hmembers m (List.mem_cons_of_mem _ hm))
        (by simpa using hnodup) (fun x hx => hlimit x (List.mem_cons_of_mem _ hx))
      rw [Value.toMembers, hstep, hrest, List.append_assoc, List.singleton_append]

/-- A time limit that is a double is a fault, wherever it stands. -/
theorem readMembers_run_fault
    (hmembers : ∀ m ∈ rest, Described keyedProperties m ∧ Canonical m.2)
    (hnodup : ((done ++ rest).map (·.1)).Nodup) {x : Double}
    (hlimit : ("timeoutMs", .number (.real x)) ∈ rest) :
    ∃ fault, ToolSettings.record.readMembers (Value.toMembers rest) (partsOf done) =
      .error fault := by
  induction rest generalizing done with
  | nil => cases hlimit
  | cons m rest ih =>
      obtain ⟨k, v⟩ := m
      obtain ⟨hmember, hv⟩ := hmembers _ List.mem_cons_self
      have hnew := get?_of_nodup hnodup
      by_cases hhead : ∃ y, (k, v) = ("timeoutMs", .number (.real y))
      · obtain ⟨y, hy⟩ := hhead
        obtain ⟨rfl, rfl⟩ := Prod.mk.inj hy
        exact ⟨_, readMembers_real hnew y (Value.toMembers rest)⟩
      · have hother : ∀ y, (k, v) ≠ ("timeoutMs", .number (.real y)) := not_exists.mp hhead
        have hrest := (List.mem_cons.mp hlimit).resolve_left fun heq => hother x heq.symm
        rw [Value.toMembers, readMembers_fitting hmember hv hnew hother]
        exact ih (fun m hm => hmembers m (List.mem_cons_of_mem _ hm)) (by simpa using hnodup) hrest

end Reading

/-- The member is the value, or there is no member and the value is the default one. -/
def Given (member : Option Value) (encode : α → Value) (default a : α) : Prop :=
  member = none ∧ a = default ∨ member = some (encode a)

/-- Settings as the members of `m` give them. -/
structure HoldsSettings (m : Value) (s : ToolSettings) : Prop where
  executable : m.get? "executable" = some (.string s.executable.text)
  arguments : Given (m.get? "arguments") .string "" s.arguments
  environment : Given (m.get? "environment") Environment.toValue Environment.none s.environment
  workingDir : m.get? "workingDir" = s.workingDir.map fun p => .string p.text
  timeout : m.get? "timeoutMs" = s.timeout.map fun n => .number (.natural n)
  stream : m.get? "stream" = s.stream.map fun x => .string x.name
  enabled : Given (m.get? "enabled") .bool true s.enabled

section Settings

variable {members : List (String × Value)} {name : String} {schema : Schema} {v : Value}

theorem found_of_get? {read : Outline → Except Fault α} {a : α}
    (hget : Dictionary.get? name members = some v) (hread : read v.toOutline = .ok a) :
    found read name members = some a := by
  rw [found, hget, Option.bind_some, hread]
  rfl

/-- A member that may be left out is read as it is given. -/
theorem given_found {read : Outline → Except Fault α} {encode : α → Value}
    (hread : ∀ v, Dictionary.get? name members = some v →
      ∃ a, read v.toOutline = .ok a ∧ encode a = v) (default : α) :
    Given (Dictionary.get? name members) encode default
      ((found read name members).getD default) := by
  cases hget : Dictionary.get? name members with
  | none =>
      left
      rw [found_of_new hget]
      exact ⟨rfl, rfl⟩
  | some v =>
      obtain ⟨a, ha, rfl⟩ := hread v hget
      right
      rw [found_of_get? hget ha]
      rfl

theorem optional_found {read : Outline → Except Fault (Option α)} {encode : α → Value}
    (hread : ∀ v, Dictionary.get? name members = some v →
      ∃ a, read v.toOutline = .ok (some a) ∧ encode a = v) :
    Dictionary.get? name members = ((found read name members).getD none).map encode := by
  cases hget : Dictionary.get? name members with
  | none =>
      rw [found_of_new hget]
      rfl
  | some v =>
      obtain ⟨a, ha, rfl⟩ := hread v hget
      rw [found_of_get? hget ha]
      rfl

theorem text_ofString (s : String) : (Path.ofString s).text = s := by
  rw [Path.text, Path.ofString, String.ofList_toList]

theorem holdsSettings (hmembers : ∀ m ∈ members, Described keyedProperties m ∧ Canonical m.2)
    (hexecutable : Dictionary.get? "executable" members ≠ none)
    (hlimit : ∀ x, Dictionary.get? "timeoutMs" members ≠ some (.number (.real x))) :
    HoldsSettings (.object members) (ToolSettings.ofParts (partsOf members)) := by
  have hfits {name : String} {schema : Schema} {v : Value}
      (hschema : Dictionary.get? name keyedProperties = some schema)
      (hget : Dictionary.get? name members = some v) : Fits schema v :=
    fits_of_described (fun m hm => (hmembers m hm).1) hschema hget
  constructor
  case executable =>
      obtain ⟨v, hget⟩ := Option.ne_none_iff_exists'.mp hexecutable
      obtain ⟨s, rfl⟩ := exists_string (hfits rfl hget)
      have hfound : (partsOf members).executable = some (Path.ofString s) := found_of_get? hget rfl
      rw [ToolSettings.ofParts, hfound, Option.getD_some, text_ofString]
      exact hget
  case arguments =>
      refine given_found (fun v hget => ?_) ""
      obtain ⟨s, rfl⟩ := exists_string (hfits rfl hget)
      exact ⟨s, rfl, rfl⟩
  case environment =>
      refine given_found (fun v hget => ?_) Environment.none
      exact read_environment (hfits rfl hget) (hmembers _ (mem_of_get? hget)).2
  case workingDir =>
      refine optional_found fun v hget => ?_
      obtain ⟨s, rfl⟩ := exists_string (hfits rfl hget)
      exact ⟨Path.ofString s, rfl, by rw [text_ofString]⟩
  case timeout =>
      refine optional_found fun v hget => ?_
      rcases exists_limit (hfits rfl hget) with ⟨n, -, rfl⟩ | ⟨x, rfl⟩
      · exact ⟨n, readUInt64_natural n, rfl⟩
      · exact absurd hget (hlimit x)
  case stream =>
      refine optional_found fun v hget => ?_
      obtain ⟨x, rfl⟩ := exists_stream (hfits rfl hget)
      exact ⟨x, readStream_name x, rfl⟩
  case enabled =>
      refine given_found (fun v hget => ?_) true
      obtain ⟨b, rfl⟩ := exists_bool (hfits rfl hget)
      exact ⟨b, rfl, rfl⟩

theorem readMembers_closed (hexecutable : Dictionary.get? "executable" members ≠ none)
    (hmembers : ∀ m ∈ members, Described keyedProperties m) :
    ToolSettings.record.readMembers .closed (partsOf members) = .ok (partsOf members) := by
  obtain ⟨v, hget⟩ := Option.ne_none_iff_exists'.mp hexecutable
  obtain ⟨s, rfl⟩ := exists_string (fits_of_described hmembers rfl hget)
  have hfound : (partsOf members).executable = some (Path.ofString s) := found_of_get? hget rfl
  simp [Record.readMembers, ToolSettings.record, Field.of, hfound]

/-- The time limit of the settings is a double. -/
def HasRealLimit (m : Value) : Prop :=
  ∃ x, m.get? "timeoutMs" = some (.number (.real x))

/-- Settings that fit the schema are decoded to what their members say, or refused for a time limit
that is a double. -/
theorem ofValue_cases {m : Value} (hfits : Fits Config.keyedToolSchema m) (hm : Canonical m) :
    (¬ HasRealLimit m ∧ ∃ s, ToolSettings.ofValue m = .ok s ∧ HoldsSettings m s) ∨
      (HasRealLimit m ∧ ∃ fault, ToolSettings.ofValue m = .error fault) := by
  obtain ⟨members, rfl, hdescribed, hrequired⟩ := fits_object_iff.mp hfits
  cases hm with
  | object hsorted hcanonical =>
      have hmembers : ∀ m ∈ members, Described keyedProperties m ∧ Canonical m.2 :=
        fun m hm => ⟨hdescribed m hm, hcanonical m hm⟩
      have hnodup : (([] ++ members : List (String × Value)).map (·.1)).Nodup := hsorted.nodup
      have hexecutable : Dictionary.get? "executable" members ≠ none := by
        intro hnone
        obtain ⟨m, hm, hname⟩ := hrequired "executable" List.mem_cons_self
        exact get?_eq_none_iff.mp hnone m hm hname
      by_cases hlimit : HasRealLimit (.object members)
      · right
        obtain ⟨x, hx⟩ := hlimit
        obtain ⟨fault, hfault⟩ := readMembers_run_fault hmembers hnodup (mem_of_get? hx)
        have hread : ToolSettings.record.readMembers (Value.toMembers members) {} = .error fault :=
          hfault
        refine ⟨⟨x, hx⟩, fault, ?_⟩
        rw [ToolSettings.ofValue, ToolSettings.readOutline, Value.toOutline, Record.read, hread]
        rfl
      · left
        have hnone : ∀ x, Dictionary.get? "timeoutMs" members ≠ some (.number (.real x)) :=
          not_exists.mp hlimit
        have hrun := readMembers_run hmembers hnodup
          fun x hx => hnone x (get?_of_mem hsorted.nodup hx)
        have hread : ToolSettings.record.readMembers (Value.toMembers members) {} =
            .ok (partsOf members) :=
          hrun.trans (readMembers_closed hexecutable hdescribed)
        refine ⟨hlimit, ToolSettings.ofParts (partsOf members), ?_,
          holdsSettings hmembers hexecutable hnone⟩
        rw [ToolSettings.ofValue, ToolSettings.readOutline, Value.toOutline, Record.read, hread]
        rfl

end Settings

end LintGate.Proofs.FittingSettings
