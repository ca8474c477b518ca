import LintGate.Diff.Basic

/-!
Which edit scripts lead from one sequence of lines to another. How a script was found does not
matter.
-/

namespace LintGate

variable (old new : List (List Char))

/-- Whether lines of the old text and lines of the new one are what the kind says of them. -/
def ChangeKind.Fits (a b : Span) : ChangeKind → Prop
  | .equal => a.stop - a.start = b.stop - b.start ∧
      ∀ k < b.stop - b.start, old[a.start + k]? = new[b.start + k]?
  | .insert => a.start = a.stop
  | .delete => b.start = b.stop
  | .replace => a.start < a.stop ∧ b.start < b.stop

instance (a b : Span) : (kind : ChangeKind) → Decidable (kind.Fits old new a b)
  | .equal => inferInstanceAs (Decidable (_ ∧ _))
  | .insert => inferInstanceAs (Decidable (_ = _))
  | .delete => inferInstanceAs (Decidable (_ = _))
  | .replace => inferInstanceAs (Decidable (_ ∧ _))

/-- The entry starts at line `i` of the old text and line `j` of the new one, and fits. -/
structure EditEntry.FitsAt (e : EditEntry) (i j : Nat) : Prop where
  old_start : e.old.start = i
  new_start : e.new.start = j
  old_le : e.old.start ≤ e.old.stop
  new_le : e.new.start ≤ e.new.stop
  kind : e.kind.Fits old new e.old e.new

instance (e : EditEntry) (i j : Nat) : Decidable (e.FitsAt old new i j) :=
  decidable_of_iff (e.old.start = i ∧ e.new.start = j ∧ e.old.start ≤ e.old.stop ∧
      e.new.start ≤ e.new.stop ∧ e.kind.Fits old new e.old e.new)
    ⟨fun ⟨ho, hn, hol, hnl, hk⟩ => ⟨ho, hn, hol, hnl, hk⟩,
      fun ⟨ho, hn, hol, hnl, hk⟩ => ⟨ho, hn, hol, hnl, hk⟩⟩

/-- The entries lead from line `i` of the old text and line `j` of the new one to the ends, without
a gap. -/
def Leads (i j : Nat) : List EditEntry → Prop
  | [] => i = old.length ∧ j = new.length
  | e :: rest => e.FitsAt old new i j ∧ Leads e.old.stop e.new.stop rest

instance decidableLeads (i j : Nat) : (entries : List EditEntry) →
    Decidable (Leads old new i j entries)
  | [] => inferInstanceAs (Decidable (_ ∧ _))
  | e :: rest =>
    have := decidableLeads e.old.stop e.new.stop rest
    inferInstanceAs (Decidable (_ ∧ _))

namespace EditScript

/-- The script leads from the old text to the new one. -/
structure Valid (s : EditScript) : Prop where
  leads : Leads old new 0 0 s.entries

instance (s : EditScript) : Decidable (s.Valid old new) :=
  decidable_of_iff (Leads old new 0 0 s.entries) ⟨fun h => ⟨h⟩, fun h => h.leads⟩

end EditScript

end LintGate
