import LintGate.Json.Record
import LintGate.Proofs.SortedEntries

/-!
The members of a document, as its value has them and as decoding meets them. The value of a document
has the last of the members with one name, in every object.
-/

namespace LintGate.Proofs.DocumentMembers

open LintGate.Json
open LintGate.Proofs.SortedEntries

/-- Every object in the value has its members in the order of their names. -/
inductive Canonical : Value → Prop
  | null : Canonical .null
  | bool (b : Bool) : Canonical (.bool b)
  | number (n : Number) : Canonical (.number n)
  | string (s : String) : Canonical (.string s)
  | array {items : List Value} (h : ∀ v ∈ items, Canonical v) : Canonical (.array items)
  | object {members : List (String × Value)} (hsorted : Sorted members)
      (h : ∀ m ∈ members, Canonical m.2) : Canonical (.object members)

mutual
theorem canonical_of_toValue? : (o : Outline) → (room : Nat) → (v : Value) →
    o.toValue? room = some v → Canonical v
  | .broken, _, _, h => nomatch h
  | .null, _, _, h => by
      obtain rfl := Option.some.inj h
      exact .null
  | .bool b, _, _, h => by
      obtain rfl := Option.some.inj h
      exact .bool b
  | .number n, _, _, h => by
      obtain ⟨n, -, rfl⟩ := Option.map_eq_some_iff.mp h
      exact .number n
  | .string s, _, _, h => by
      obtain ⟨s, -, rfl⟩ := Option.map_eq_some_iff.mp h
      exact .string s
  | .array items, room, v, h => by
      rw [Outline.toValue?] at h
      split at h
      · cases h
      · obtain ⟨vs, hvs, rfl⟩ := Option.map_eq_some_iff.mp h
        exact .array (canonical_of_toValues? items (room - 1) vs hvs)
  | .object members, room, v, h => by
      rw [Outline.toValue?] at h
      split at h
      · cases h
      · obtain ⟨ms, hms, rfl⟩ := Option.map_eq_some_iff.mp h
        have hall := canonical_of_toMembers? members (room - 1) ms hms
        exact .object (sorted_ofEntries ms) fun m hm => hall m (mem_of_mem_ofEntries hm)

theorem canonical_of_toValues? : (items : Items) → (room : Nat) → (vs : List Value) →
    items.toValues? room = some vs → ∀ v ∈ vs, Canonical v
  | .closed, _, _, h => by
      obtain rfl := Option.some.inj h
      nofun
  | .broken, _, _, h => nomatch h
  | .item value rest, room, vs, h => by
      obtain ⟨w, hw, h⟩ := Option.bind_eq_some_iff.mp h
      obtain ⟨ws, hws, h⟩ := Option.bind_eq_some_iff.mp h
      obtain rfl := Option.some.inj h
      rw [List.forall_mem_cons]
      exact ⟨canonical_of_toValue? value room w hw, canonical_of_toValues? rest room ws hws⟩

theorem canonical_of_toMembers? : (members : Members) → (room : Nat) →
    (ms : List (String × Value)) → members.toMembers? room = some ms → ∀ m ∈ ms, Canonical m.2
  | .closed, _, _, h => by
      obtain rfl := Option.some.inj h
      nofun
  | .broken, _, _, h => nomatch h
  | .member key value rest, room, vs, h => by
      obtain ⟨k, hk, h⟩ := Option.bind_eq_some_iff.mp h
      obtain ⟨w, hw, h⟩ := Option.bind_eq_some_iff.mp h
      obtain ⟨ms, hms, h⟩ := Option.bind_eq_some_iff.mp h
      obtain rfl := Option.some.inj h
      rw [List.forall_mem_cons]
      exact ⟨canonical_of_toValue? value room w hw, canonical_of_toMembers? rest room ms hms⟩
end

theorem canonical_get? {v w : Value} {name : String} (hv : Canonical v)
    (h : v.get? name = some w) : Canonical w := by
  cases hv with
  | object _ hmembers => exact hmembers _ (mem_of_get? h)
  | _ => cases h

/-- The last member with the name. -/
def lastMember? (key : String) : Members → Option Outline
  | .closed => none
  | .broken => none
  | .member k value rest => (lastMember? key rest).or (if k = some key then some value else none)

/-- Where a path of names leads in a document, by the last members of these names. -/
def outlineAt? : List String → Outline → Option Outline
  | [], o => some o
  | key :: path, .object members => (lastMember? key members).bind (outlineAt? path)
  | _ :: _, _ => none

/-- Where a path of names leads in a value. -/
def valueAt? : List String → Value → Option Value
  | [], v => some v
  | key :: path, v => (v.get? key).bind (valueAt? path)

theorem valueAt?_append (path more : List String) (v : Value) :
    valueAt? (path ++ more) v = (valueAt? path v).bind (valueAt? more) := by
  induction path generalizing v with
  | nil => rfl
  | cons key path ih =>
      rw [List.cons_append, valueAt?, valueAt?, Option.bind_assoc]
      exact congrArg _ (funext ih)

theorem lastMember?_toMembers? (key : String) : (members : Members) → {room : Nat} →
    {ms : List (String × Value)} → members.toMembers? room = some ms →
    (lastMember? key members).map (·.toValue? room) = (Dictionary.get? key ms.reverse).map some
  | .closed, _, _, h => by
      obtain rfl := Option.some.inj h
      rfl
  | .broken, _, _, h => nomatch h
  | .member k value rest, room, ms, h => by
      obtain ⟨name, rfl, h⟩ := Option.bind_eq_some_iff.mp h
      obtain ⟨w, hw, h⟩ := Option.bind_eq_some_iff.mp h
      obtain ⟨ws, hws, h⟩ := Option.bind_eq_some_iff.mp h
      obtain rfl := Option.some.inj h
      have hrest := lastMember?_toMembers? key rest hws
      rw [lastMember?, List.reverse_cons, get?_append, get?_cons, get?_nil, Option.map_or,
        Option.map_or, hrest]
      by_cases hname : name = key <;> simp [hname, hw]

theorem get?_toValue? {o : Outline} {room : Nat} {v : Value} (h : o.toValue? room = some v)
    (key : String) :
    (outlineAt? [key] o).map (·.toValue? (room - 1)) = (v.get? key).map some := by
  cases o with
  | broken => cases h
  | null => cases h; rfl
  | bool b => cases h; rfl
  | number n =>
      obtain ⟨n, -, rfl⟩ := Option.map_eq_some_iff.mp h
      rfl
  | string s =>
      obtain ⟨s, -, rfl⟩ := Option.map_eq_some_iff.mp h
      rfl
  | array items =>
      rw [Outline.toValue?] at h
      split at h
      · cases h
      · obtain ⟨vs, -, rfl⟩ := Option.map_eq_some_iff.mp h
        rfl
  | object members =>
      rw [Outline.toValue?] at h
      split at h
      · cases h
      · obtain ⟨ms, hms, rfl⟩ := Option.map_eq_some_iff.mp h
        have hlast := lastMember?_toMembers? key members hms
        have hget : (Value.object (Dictionary.ofEntries ms)).get? key =
            Dictionary.get? key ms.reverse :=
          get?_ofEntries key ms
        rw [hget, ← hlast, outlineAt?]
        exact congrArg _ (Option.bind_fun_some _)

theorem outlineAt?_cons (key : String) (path : List String) (o : Outline) :
    outlineAt? (key :: path) o = (outlineAt? [key] o).bind (outlineAt? path) := by
  cases o with
  | object members => cases hlast : lastMember? key members <;> simp [outlineAt?, hlast]
  | _ => rfl

/-- A path leads somewhere in the value just if it does in the document, and the value there is the
value of what stands in the document. -/
theorem valueAt?_toValue? {o : Outline} {room : Nat} {v : Value} (h : o.toValue? room = some v)
    (path : List String) :
    (outlineAt? path o).map (·.toValue? (room - path.length)) = (valueAt? path v).map some := by
  induction path generalizing o room v with
  | nil => exact congrArg some h
  | cons key path ih =>
      have hmember := get?_toValue? h key
      rw [outlineAt?_cons, valueAt?]
      cases hlast : outlineAt? [key] o with
      | none =>
          rw [hlast] at hmember
          have hget : v.get? key = none := Option.map_eq_none_iff.mp hmember.symm
          rw [hget]
          rfl
      | some found =>
          rw [hlast] at hmember
          obtain ⟨w, hget, hw⟩ := Option.map_eq_some_iff.mp hmember.symm
          have hlength : room - (key :: path).length = room - 1 - path.length := by
            rw [List.length_cons]
            omega
          rw [hget, hlength]
          exact ih hw.symm

theorem toValue?_of_read? {text : String} {v : Value} (h : Value.read? text = some v) :
    (Document.read text).root.toValue? depthLimit = some v := by
  rw [Value.read?, Document.toValue?] at h
  split at h
  · exact h
  · cases h

section Decoding

variable {P : Type} {r : Record P} {f : Json.Field P} {p p' : P} {key : String} {value : Outline}

theorem readMembers_field (hf : r.fields.find? (·.name == key) = some f)
    (hset : f.isSet p = false) (hread : f.read value p = .ok p') (rest : Members) :
    r.readMembers (.member (some key) value rest) p = r.readMembers rest p' := by
  simp [Record.readMembers, hf, hset, hread, bind, Except.bind]

theorem readMembers_fault {fault : Fault} (hf : r.fields.find? (·.name == key) = some f)
    (hset : f.isSet p = false) (hread : f.read value p = .error fault) (rest : Members) :
    r.readMembers (.member (some key) value rest) p = .error fault := by
  simp [Record.readMembers, hf, hset, hread, bind, Except.bind]

end Decoding

end LintGate.Proofs.DocumentMembers
