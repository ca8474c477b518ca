import LintGate.Proofs.Fields
import LintGate.Proofs.FittingSettings
import LintGate.Proofs.WrittenNumbers

/-!
The documents that are configurations. A document is one just if its value fits the schema and its
time limits are integers of 64 bits, and then the configuration is what the members say.
-/

namespace LintGate.Proofs.ConfigAcceptance

open LintGate.Json
open LintGate.Proofs.SortedEntries
open LintGate.Proofs.SchemaFits
open LintGate.Proofs.DocumentMembers
open LintGate.Proofs.FittingSettings
open LintGate.Proofs.WrittenNumbers

/-- A configuration as the members of `v` give it. -/
structure HoldsConfig (v : Value) (c : Config) : Prop where
  modifiedLinesOnly : Given (valueAt? ["modifiedLinesOnly"] v) .bool false c.modifiedLinesOnly
  profile : valueAt? ["profile"] v = c.profile.map fun p => .string p.text
  projectKey : valueAt? ["projectKey"] v = c.projectKey.map .string
  includes : Given (valueAt? ["include"] v) .ofStrings [] c.includes
  excludes : Given (valueAt? ["exclude"] v) .ofStrings [] c.excludes
  cppcheck : Option.Rel HoldsSettings (valueAt? ["tools", "cppcheck"] v) c.cppcheck
  rats : Option.Rel HoldsSettings (valueAt? ["tools", "rats"] v) c.rats
  vera : Option.Rel HoldsSettings (valueAt? ["tools", "vera"] v) c.vera
  pclint : Option.Rel HoldsSettings (valueAt? ["tools", "pclint"] v) c.pclint
  other : Option.Rel HoldsSettings (valueAt? ["tools", "custom"] v) c.other
  otherKey : valueAt? ["tools", "custom", "key"] v = c.otherKey.map .string
  baseDir : c.baseDir = none

theorem valueAt?_singleton (name : String) (v : Value) : valueAt? [name] v = v.get? name :=
  Option.bind_fun_some _

theorem stringMember?_eq {name : String} {v : Value}
    (h : ∀ w, v.get? name = some w → ∃ s, w = .string s) :
    v.get? name = (Config.stringMember? name v).map .string := by
  unfold Config.stringMember?
  cases hget : v.get? name with
  | none => rfl
  | some w =>
      obtain ⟨s, rfl⟩ := h w hget
      rfl

theorem exists_strings {minLength : Nat} {v : Value} (h : Fits (.array (.string minLength)) v) :
    ∃ texts : List String, v = .ofStrings texts := by
  cases h with
  | @array _ items h =>
      induction items with
      | nil => exact ⟨[], rfl⟩
      | cons w rest ih =>
          obtain ⟨s, rfl⟩ := exists_string (h w List.mem_cons_self)
          obtain ⟨texts, htexts⟩ := ih fun v hv => h v (List.mem_cons_of_mem _ hv)
          have hrest : rest = texts.map .string := Value.array.inj htexts
          exact ⟨s :: texts, by rw [hrest]; rfl⟩

theorem stringsMember_given {name : String} {v : Value}
    (h : ∀ w, v.get? name = some w → ∃ texts : List String, w = .ofStrings texts) :
    Given (v.get? name) .ofStrings [] (Config.stringsMember name v) := by
  unfold Config.stringsMember
  cases hget : v.get? name with
  | none => exact .inl ⟨rfl, rfl⟩
  | some w =>
      obtain ⟨texts, rfl⟩ := h w hget
      right
      simp [Value.ofStrings, List.filterMap_map]

section Tools

variable {tools v : Value} {name : String}

theorem toolMember_cases
    (hmember : ∀ m, tools.get? name = some m → Fits Config.keyedToolSchema m ∧ Canonical m) :
    ((∀ m, tools.get? name = some m → ¬ HasRealLimit m) ∧
        ∃ settings, Config.toolMember name tools = .ok settings ∧
          Option.Rel HoldsSettings (tools.get? name) settings) ∨
      ((∃ m, tools.get? name = some m ∧ HasRealLimit m) ∧
        ∃ fault, Config.toolMember name tools = .error fault) := by
  unfold Config.toolMember
  cases hget : tools.get? name with
  | none => exact .inl ⟨nofun, none, rfl, .none⟩
  | some m =>
      obtain ⟨hfits, hm⟩ := hmember m hget
      rcases ofValue_cases hfits hm with ⟨hlimit, settings, hok, hholds⟩ | ⟨hlimit, fault, hfault⟩
      · left
        refine ⟨?_, some settings, congrArg (Except.map some) hok, .some hholds⟩
        rintro _ ⟨⟩
        exact hlimit
      · exact .inr ⟨⟨m, rfl, hlimit⟩, fault, congrArg (Except.map some) hfault⟩

/-- The properties of `tools`. -/
def toolsProperties : List (String × Schema) :=
  [("cppcheck", Config.toolSchema), ("rats", Config.toolSchema), ("vera", Config.toolSchema),
    ("pclint", Config.toolSchema), ("custom", Config.keyedToolSchema)]

/-- The object in which the settings of the tools stand. -/
def toolsOf (v : Value) : Value :=
  (v.get? "tools").getD (.object [])

theorem get?_toolsOf (name : String) (v : Value) :
    (toolsOf v).get? name = valueAt? ["tools", name] v := by
  rw [toolsOf, valueAt?]
  cases v.get? "tools" with
  | none => rfl
  | some tools => exact (valueAt?_singleton name tools).symm

theorem valueAt?_tool (tool name : String) (v : Value) :
    valueAt? ["tools", tool, name] v = ((toolsOf v).get? tool).bind (·.get? name) := by
  have hname : valueAt? [name] = (·.get? name) := funext (valueAt?_singleton name)
  rw [get?_toolsOf, ← hname, ← valueAt?_append]
  rfl

theorem fits_toolsOf (hfits : Fits Config.schema v) :
    Fits (.object toolsProperties []) (toolsOf v) := by
  rw [toolsOf]
  cases hget : v.get? "tools" with
  | none => exact fits_object_iff.mpr ⟨[], rfl, List.forall_mem_nil _, List.forall_mem_nil _⟩
  | some tools => exact fits_get? hfits rfl hget

theorem canonical_toolsOf (hv : Canonical v) : Canonical (toolsOf v) := by
  rw [toolsOf]
  cases hget : v.get? "tools" with
  | none => exact .object .nil (List.forall_mem_nil _)
  | some tools => exact canonical_get? hv hget

theorem fits_tool (hfits : Fits (.object toolsProperties []) tools) {m : Value}
    (hget : tools.get? name = some m) : Fits Config.keyedToolSchema m := by
  have hname := mem_of_fits hfits hget
  simp only [toolsProperties, List.map_cons, List.map_nil, List.mem_cons, List.not_mem_nil,
    or_false] at hname
  rcases hname with rfl | rfl | rfl | rfl | rfl
  · exact fits_keyed (fits_get? hfits rfl hget)
  · exact fits_keyed (fits_get? hfits rfl hget)
  · exact fits_keyed (fits_get? hfits rfl hget)
  · exact fits_keyed (fits_get? hfits rfl hget)
  · exact fits_get? hfits rfl hget

/-- A tool whose settings are refused, whichever it is, has the configuration refused. -/
theorem toolMember_of_ofFitting {c : Config} (h : Config.ofFitting v = .ok c)
    (hname : name ∈ toolsProperties.map (·.1)) :
    ∃ settings, Config.toolMember name (toolsOf v) = .ok settings := by
  obtain ⟨cppcheck, hcppcheck, h⟩ := Fields.bind_eq_ok h
  obtain ⟨other, hother, h⟩ := Fields.bind_eq_ok h
  obtain ⟨pclint, hpclint, h⟩ := Fields.bind_eq_ok h
  obtain ⟨rats, hrats, h⟩ := Fields.bind_eq_ok h
  obtain ⟨vera, hvera, h⟩ := Fields.bind_eq_ok h
  simp only [toolsProperties, List.map_cons, List.map_nil, List.mem_cons, List.not_mem_nil,
    or_false] at hname
  rcases hname with rfl | rfl | rfl | rfl | rfl
  · exact ⟨cppcheck, hcppcheck⟩
  · exact ⟨rats, hrats⟩
  · exact ⟨vera, hvera⟩
  · exact ⟨pclint, hpclint⟩
  · exact ⟨other, hother⟩

theorem ofFitting_ok {cppcheck rats vera pclint other : Option ToolSettings}
    (hcppcheck : Config.toolMember "cppcheck" (toolsOf v) = .ok cppcheck)
    (hrats : Config.toolMember "rats" (toolsOf v) = .ok rats)
    (hvera : Config.toolMember "vera" (toolsOf v) = .ok vera)
    (hpclint : Config.toolMember "pclint" (toolsOf v) = .ok pclint)
    (hother : Config.toolMember "custom" (toolsOf v) = .ok other) :
    Config.ofFitting v = .ok {
      modifiedLinesOnly := match v.get? "modifiedLinesOnly" with
        | some (.bool b) => b
        | _ => false
      profile := (Config.stringMember? "profile" v).map Path.ofString
      projectKey := Config.stringMember? "projectKey" v
      includes := Config.stringsMember "include" v
      excludes := Config.stringsMember "exclude" v
      cppcheck, rats, vera, pclint, other
      otherKey := ((toolsOf v).get? "custom").bind (Config.stringMember? "key") } := by
  simp only [toolsOf] at hcppcheck hrats hvera hpclint hother
  simp only [Config.ofFitting, hcppcheck, hrats, hvera, hpclint, hother, bind, Except.bind]
  rfl

/-- Some tool has a time limit that is a double. -/
def HasRealLimits (v : Value) : Prop :=
  ∃ tool x, valueAt? ["tools", tool, "timeoutMs"] v = some (.number (.real x))

theorem hasRealLimits_iff :
    HasRealLimits v ↔ ∃ name m, (toolsOf v).get? name = some m ∧ HasRealLimit m := by
  constructor
  · rintro ⟨name, x, hx⟩
    rw [valueAt?_tool] at hx
    obtain ⟨m, hget, hx⟩ := Option.bind_eq_some_iff.mp hx
    exact ⟨name, m, hget, x, hx⟩
  · rintro ⟨name, m, hget, x, hx⟩
    refine ⟨name, x, ?_⟩
    rw [valueAt?_tool, hget]
    exact hx

end Tools

/-- A value that fits the schema is decoded to what its members say, or refused for a time limit
that is a double. -/
theorem ofFitting_cases {v : Value} (hfits : Fits Config.schema v) (hv : Canonical v) :
    (¬ HasRealLimits v ∧ ∃ c, Config.ofFitting v = .ok c ∧ HoldsConfig v c) ∨
      (HasRealLimits v ∧ ∃ fault, Config.ofFitting v = .error fault) := by
  have hmember (name : String) (m : Value) (hget : (toolsOf v).get? name = some m) :
      Fits Config.keyedToolSchema m ∧ Canonical m :=
    ⟨fits_tool (fits_toolsOf hfits) hget, canonical_get? (canonical_toolsOf hv) hget⟩
  by_cases hlimits : HasRealLimits v
  · right
    refine ⟨hlimits, ?_⟩
    obtain ⟨name, m, hget, hlimit⟩ := hasRealLimits_iff.mp hlimits
    cases hres : Config.ofFitting v with
    | error fault => exact ⟨fault, rfl⟩
    | ok c =>
        exfalso
        obtain ⟨settings, hok⟩ :=
          toolMember_of_ofFitting hres (mem_of_fits (fits_toolsOf hfits) hget)
        rcases toolMember_cases (hmember name) with ⟨hnone, -⟩ | ⟨-, fault, hfault⟩
        · exact hnone m hget hlimit
        · rw [hok] at hfault
          cases hfault
  · left
    refine ⟨hlimits, ?_⟩
    have htool (name : String) : ∃ settings, Config.toolMember name (toolsOf v) = .ok settings ∧
        Option.Rel HoldsSettings (valueAt? ["tools", name] v) settings := by
      rw [← get?_toolsOf]
      rcases toolMember_cases (hmember name) with ⟨-, hok⟩ | ⟨⟨m, hget, hlimit⟩, -⟩
      · exact hok
      · exact absurd (hasRealLimits_iff.mpr ⟨name, m, hget, hlimit⟩) hlimits
    obtain ⟨cppcheck, hcppcheck, cppcheckHolds⟩ := htool "cppcheck"
    obtain ⟨other, hother, otherHolds⟩ := htool "custom"
    obtain ⟨pclint, hpclint, pclintHolds⟩ := htool "pclint"
    obtain ⟨rats, hrats, ratsHolds⟩ := htool "rats"
    obtain ⟨vera, hvera, veraHolds⟩ := htool "vera"
    refine ⟨_, ofFitting_ok hcppcheck hrats hvera hpclint hother, ?_⟩
    constructor
    case modifiedLinesOnly =>
        rw [valueAt?_singleton]
        cases hget : v.get? "modifiedLinesOnly" with
        | none => exact .inl ⟨rfl, rfl⟩
        | some w =>
            obtain ⟨b, rfl⟩ := exists_bool (fits_get? hfits rfl hget)
            exact .inr rfl
    case profile =>
        have hstring := @stringMember?_eq "profile" v fun w hget =>
          exists_string (fits_get? hfits rfl hget)
        rw [valueAt?_singleton, hstring, Option.map_map]
        congr 1
        funext s
        simp only [Function.comp_apply, text_ofString]
    case projectKey =>
        rw [valueAt?_singleton]
        exact stringMember?_eq fun w hget => exists_string (fits_get? hfits rfl hget)
    case includes =>
        rw [valueAt?_singleton]
        exact stringsMember_given fun w hget => exists_strings (fits_get? hfits rfl hget)
    case excludes =>
        rw [valueAt?_singleton]
        exact stringsMember_given fun w hget => exists_strings (fits_get? hfits rfl hget)
    case cppcheck => exact cppcheckHolds
    case rats => exact ratsHolds
    case vera => exact veraHolds
    case pclint => exact pclintHolds
    case other => exact otherHolds
    case otherKey =>
        rw [valueAt?_tool]
        cases hget : (toolsOf v).get? "custom" with
        | none => rfl
        | some m =>
            have hkeyed := (hmember "custom" m hget).1
            exact stringMember?_eq fun w hw => exists_string (fits_get? hkeyed rfl hw)
    case baseDir => rfl

section Numerals

variable {n : Numeral} {x : Double}

theorem isNegative_of_ofRank? {negative : Bool} {rank : Nat}
    (h : Double.ofRank? negative rank = some x) : x.isNegative = negative := by
  have hbinade : 2047 * Double.binade < 2 ^ 63 := by decide
  have hsign : Double.signBit = 2 ^ 63 := rfl
  have hsize : UInt64.size = 2 ^ 64 := rfl
  simp only [Double.ofRank?] at h
  split at h
  · rename_i hrank
    obtain ⟨_, hx⟩ := Option.dite_none_right_eq_some.mp h
    obtain rfl := Option.some.inj hx
    cases negative with
    | true =>
        have hbits : (UInt64.ofNat (Double.signBit + rank)).toNat = Double.signBit + rank :=
          UInt64.toNat_ofNat_of_lt' (by omega)
        have hle : Double.signBit ≤ Double.signBit + rank := Nat.le_add_right _ _
        simp only [Double.isNegative, if_true, hbits, decide_eq_true hle]
    | false =>
        have hbits : (UInt64.ofNat (0 + rank)).toNat = 0 + rank :=
          UInt64.toNat_ofNat_of_lt' (by omega)
        have hlt : ¬ Double.signBit ≤ 0 + rank := by omega
        simp only [Double.isNegative, Bool.false_eq_true, if_false, hbits, decide_eq_false hlt]
  · cases h

theorem isNegative_of_byScaling? (h : n.byScaling? = some x) : x.isNegative = n.negative := by
  obtain ⟨d, -, h⟩ := Option.bind_eq_some_iff.mp h
  dsimp only at h
  split at h
  all_goals
    obtain ⟨d, -, h⟩ := Option.bind_eq_some_iff.mp h
    exact isNegative_of_ofRank? h

/-- Just the numerals of digits that 64 bits hold are natural numbers. -/
theorem ofNumeral?_natural_iff {real : Numeral → Option Double} {k : UInt64} :
    Number.ofNumeral? real n = some (.natural k) ↔
      n.isWhole = true ∧ n.negative = false ∧ Text.ofDigits n.whole = k.toNat := by
  rw [Number.ofNumeral?]
  constructor
  · intro h
    split at h
    · cases h
    · split at h
      · rename_i hcond
        simp only [Bool.and_eq_true, Bool.not_eq_true', decide_eq_true_eq] at hcond
        obtain ⟨⟨hwhole, hsign⟩, hlt⟩ := hcond
        obtain rfl := Number.natural.inj (Option.some.inj h)
        exact ⟨hwhole, hsign, (UInt64.toNat_ofNat_of_lt' hlt).symm⟩
      · obtain ⟨_, _, h⟩ := Option.map_eq_some_iff.mp h
        cases h
  · rintro ⟨hwhole, hsign, heq⟩
    have hlt : k.toNat < UInt64.size := k.toNat_lt_size
    simp [hwhole, hsign, heq, hlt]

theorem ofNumeral?_real_iff (hx : x.isNegative = false) :
    Number.ofNumeral? Numeral.byScaling? n = some (.real x) ↔
      (n.isWhole = false ∨ UInt64.size ≤ Text.ofDigits n.whole) ∧ n.byScaling? = some x := by
  have hsize : UInt64.size = 2 ^ 64 := rfl
  rw [Number.ofNumeral?]
  constructor
  · intro h
    split at h
    · cases h
    · split at h
      · cases h
      · rename_i hcond
        obtain ⟨y, hy, h⟩ := Option.map_eq_some_iff.mp h
        obtain rfl := Number.real.inj h
        have hsign : n.negative = false := (isNegative_of_byScaling? hy).symm.trans hx
        refine ⟨?_, hy⟩
        cases hwhole : n.isWhole with
        | false => exact .inl rfl
        | true =>
            simp only [hwhole, hsign, Bool.not_false, Bool.and_true, Bool.true_and,
              decide_eq_true_eq, Nat.not_lt] at hcond
            exact .inr hcond
  · rintro ⟨hlong, hy⟩
    rw [if_neg, if_neg, hy]
    · rfl
    · rcases hlong with hwhole | hlarge
      · simp [hwhole]
      · simp [Nat.not_lt.mpr hlarge]
    · rcases hlong with hwhole | hlarge
      · simp [hwhole]
      · have hgreat : ¬ Text.ofDigits n.whole ≤ UInt64.size / 2 := by omega
        simp [hgreat]

end Numerals

/-- The three results a text that has a value can give. -/
theorem ofJson_cases {text : String} {v : Value} (h : Value.read? text = some v) :
    (¬ Fits Config.schema v ∧ ∃ violation, Config.ofJson text = .error (.violation violation)) ∨
      (Fits Config.schema v ∧ ¬ HasRealLimits v ∧
        ∃ c, Config.ofJson text = .ok c ∧ HoldsConfig v c) ∨
      (Fits Config.schema v ∧ HasRealLimits v ∧
        ∃ fault, Config.ofJson text = .error (.invalidData fault)) := by
  rw [Config.ofJson, h]
  dsimp only
  cases hcheck : Config.schema.check v with
  | some violation =>
      left
      refine ⟨fun hfits => ?_, violation, rfl⟩
      rw [(check_eq_none_iff _ _).mpr hfits] at hcheck
      cases hcheck
  | none =>
      right
      have hfits := (check_eq_none_iff _ _).mp hcheck
      have hv := canonical_of_toValue? _ _ _ (toValue?_of_read? h)
      rcases ofFitting_cases hfits hv with ⟨hlimits, c, hok, hholds⟩ | ⟨hlimits, fault, hfault⟩
      · exact .inl ⟨hfits, hlimits, c, by rw [hok], hholds⟩
      · exact .inr ⟨hfits, hlimits, fault, by rw [hfault]⟩

theorem of_ofJson_ok {text : String} {v : Value} {c : Config} (h : Value.read? text = some v)
    (hc : Config.ofJson text = .ok c) :
    Fits Config.schema v ∧ ¬ HasRealLimits v ∧ HoldsConfig v c := by
  rcases ofJson_cases h with
    ⟨-, _, hresult⟩ | ⟨hfits, hlimits, c', hresult, hholds⟩ | ⟨-, -, _, hresult⟩
  · rw [hc] at hresult
    cases hresult
  · obtain rfl := Except.ok.inj (hc.symm.trans hresult)
    exact ⟨hfits, hlimits, hholds⟩
  · rw [hc] at hresult
    cases hresult

theorem of_ofJson_invalidData {text : String} {v : Value} {fault : Fault}
    (h : Value.read? text = some v) (hfault : Config.ofJson text = .error (.invalidData fault)) :
    Fits Config.schema v ∧ HasRealLimits v := by
  rcases ofJson_cases h with
    ⟨-, _, hresult⟩ | ⟨-, -, _, hresult, -⟩ | ⟨hfits, hlimits, -⟩
  · rw [hfault] at hresult
    cases hresult
  · rw [hfault] at hresult
    cases hresult
  · exact ⟨hfits, hlimits⟩

/-- The time limits of a value that fits the schema are natural numbers or doubles. -/
theorem not_hasRealLimits_iff {v : Value} (hfits : Fits Config.schema v) :
    ¬ HasRealLimits v ↔
      ∀ tool limit, valueAt? ["tools", tool, "timeoutMs"] v = some limit →
        ∃ n : UInt64, 1 ≤ n.toNat ∧ limit = .number (.natural n) := by
  constructor
  · intro hnone tool limit hlimit
    have htool := hlimit
    rw [valueAt?_tool] at htool
    obtain ⟨m, hget, hmember⟩ := Option.bind_eq_some_iff.mp htool
    have hkeyed := fits_tool (fits_toolsOf hfits) hget
    rcases exists_limit (fits_get? hkeyed rfl hmember) with hnatural | ⟨x, rfl⟩
    · exact hnatural
    · exact absurd ⟨tool, x, hlimit⟩ hnone
  · rintro hnatural ⟨tool, x, hx⟩
    obtain ⟨n, -, hn⟩ := hnatural tool _ hx
    cases hn

/-- What is made of a text that has a value `v`. It is a configuration just if `v` fits the schema
and its time limits are natural numbers; it is refused as bad data just if `v` fits the schema and
has a time limit that is a double. A configuration is what the members of `v` say, which are the
last ones of their names in the document. The numbers among them are numerals of the text: those of
digits that 64 bits hold are natural numbers, and a double that is not below zero is written
otherwise. -/
theorem ofJson_iff {text : String} {v : Value} (h : Value.read? text = some v) :
    ((∃ c, Config.ofJson text = .ok c) ↔
      Fits Config.schema v ∧
        ∀ tool limit, valueAt? ["tools", tool, "timeoutMs"] v = some limit →
          ∃ n : UInt64, 1 ≤ n.toNat ∧ limit = .number (.natural n)) ∧
    ((∃ fault, Config.ofJson text = .error (.invalidData fault)) ↔
      Fits Config.schema v ∧
        ∃ tool x, valueAt? ["tools", tool, "timeoutMs"] v = some (.number (.real x))) ∧
    (∀ c, Config.ofJson text = .ok c → HoldsConfig v c) ∧
    (∀ path, (outlineAt? path (Document.read text).root).map
        (·.toValue? (depthLimit - path.length)) = (valueAt? path v).map some) ∧
    (∀ path name number, valueAt? (path ++ [name]) v = some (.number number) →
      ∃ n, Writes text.toList name n ∧
        (∀ k, number = .natural k ↔
          n.isWhole = true ∧ n.negative = false ∧ Text.ofDigits n.whole = k.toNat) ∧
        (∀ x, x.isNegative = false → (number = .real x ↔
          (n.isWhole = false ∨ UInt64.size ≤ Text.ofDigits n.whole) ∧ n.byScaling? = some x))) := by
  refine ⟨?_, ?_, fun c hc => (of_ofJson_ok h hc).2.2, valueAt?_toValue? (toValue?_of_read? h), ?_⟩
  · constructor
    · rintro ⟨c, hc⟩
      obtain ⟨hfits, hlimits, -⟩ := of_ofJson_ok h hc
      exact ⟨hfits, (not_hasRealLimits_iff hfits).mp hlimits⟩
    · rintro ⟨hfits, hnatural⟩
      have hlimits := (not_hasRealLimits_iff hfits).mpr hnatural
      rcases ofJson_cases h with ⟨hmisfit, -⟩ | ⟨-, -, c, hc, -⟩ | ⟨-, hreal, -⟩
      · exact absurd hfits hmisfit
      · exact ⟨c, hc⟩
      · exact absurd hreal hlimits
  · constructor
    · rintro ⟨fault, hfault⟩
      exact of_ofJson_invalidData h hfault
    · rintro ⟨hfits, hlimits⟩
      rcases ofJson_cases h with ⟨hmisfit, -⟩ | ⟨-, hnone, -⟩ | ⟨-, -, hfault⟩
      · exact absurd hfits hmisfit
      · exact absurd hlimits hnone
      · exact hfault
  · intro path name number hnumber
    obtain ⟨n, hn, heq⟩ := exists_writes h hnumber
    refine ⟨n, hn, fun k => ?_, fun x hx => ?_⟩
    · rw [← ofNumeral?_natural_iff, heq, Option.some.injEq]
    · rw [← ofNumeral?_real_iff hx, heq, Option.some.injEq]

/-- A document in which a time limit stands twice. -/
def limitedTwice : String :=
  "\x7b \"tools\": \x7b \"rats\": \x7b \"executable\": \"rats\",
    \"timeoutMs\": 1.5, \"timeoutMs\": 5000 \x7d \x7d, \"include\": [\"*.c\"] \x7d"

/-- The later time limit counts, and the earlier one does no harm. -/
theorem ofJson_iff_limitedTwice :
    ∃ v, Value.read? limitedTwice = some v ∧ Fits Config.schema v ∧
      valueAt? ["include"] v = some (.ofStrings ["*.c"]) ∧
      valueAt? ["tools", "rats", "timeoutMs"] v = some (.number (.natural 5000)) := by
  have hsome : (Value.read? limitedTwice).isSome = true := by decide +kernel
  obtain ⟨v, hv⟩ := Option.isSome_iff_exists.mp hsome
  have hconfig : (Config.ofJson limitedTwice).toOption = some
      { includes := ["*.c"]
        rats := some { executable := Path.ofString "rats", timeout := some 5000 } } := by
    decide +kernel
  cases hresult : Config.ofJson limitedTwice with
  | error e =>
      rw [hresult] at hconfig
      cases hconfig
  | ok c =>
      rw [hresult] at hconfig
      obtain rfl := Option.some.inj hconfig
      obtain ⟨haccepted, -, hholds, -⟩ := ofJson_iff hv
      have hfits := (haccepted.mp ⟨_, hresult⟩).1
      have hmembers := hholds _ hresult
      refine ⟨v, hv, hfits, ?_, ?_⟩
      · rcases hmembers.includes with ⟨-, hempty⟩ | hgiven
        · cases hempty
        · exact hgiven
      · have hrats := hmembers.rats
        rw [valueAt?_tool, get?_toolsOf]
        cases hget : valueAt? ["tools", "rats"] v with
        | none =>
            rw [hget] at hrats
            cases hrats
        | some m =>
            rw [hget] at hrats
            cases hrats with
            | some hsettings => exact hsettings.timeout

end LintGate.Proofs.ConfigAcceptance
