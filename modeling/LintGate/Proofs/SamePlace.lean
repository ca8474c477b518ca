import LintGate.Proofs.FilePlace

/-!
Paths that lead to one place. The names on the way to a place decide what is found there, so paths
that are left with the same names lead to the same place, and so do they with more written behind
them, as long as the text does not grow too long.
-/

namespace LintGate.Proofs.SamePlace

open LintGate.FileTree
open LintGate.Path (pieces sameFile names)
open LintGate.Proofs.Fields
open LintGate.Proofs.FilePlace
open LintGate.Proofs.PathComponents

theorem byteLength_append (before after : List Char) :
    byteLength (before ++ after) = byteLength before + byteLength after := by
  have hfrom (n : Nat) (cs : List Char) :
      cs.foldl (fun n c => n + c.utf8Size) n = n + byteLength cs := by
    induction cs generalizing n with
    | nil => rfl
    | cons c cs ih =>
        rw [byteLength, List.foldl_cons, List.foldl_cons, ih, ih (0 + c.utf8Size)]
        omega
  rw [byteLength, List.foldl_append, hfrom]
  rfl

section Follow

/-- The entries on a way from the root, each in the directory before it, the last one first. -/
inductive IsWay (root : FileTree) : List (String × FileTree) → Prop
  | root : IsWay root []
  | enter {way : List (String × FileTree)} {name : String} {t : FileTree} :
      IsWay root way → Dictionary.get? name (Place.mk root way).tree.entries = some t →
      IsWay root ((name, t) :: way)

/-- Names lead one way only. -/
theorem IsWay.unique {root : FileTree} {way way' : List (String × FileTree)} (h : IsWay root way)
    (h' : IsWay root way') (hnames : way.map (·.1) = way'.map (·.1)) : way = way' := by
  induction h generalizing way' with
  | root => exact (List.map_eq_nil_iff.mp hnames.symm).symm
  | @enter way name t hway hget ih =>
      cases h' with
      | root => cases hnames
      | @enter way' name' t' hway' hget' =>
          obtain ⟨rfl, hrest⟩ := List.cons.inj hnames
          obtain rfl := ih hway' hrest
          rw [hget] at hget'
          rw [Option.some.inj hget']

theorem IsWay.tail {root : FileTree} {way : List (String × FileTree)} (h : IsWay root way) :
    IsWay root way.tail := by
  cases h with
  | root => exact .root
  | enter hway _ => exact hway

theorem isWay_follow {p q : Place} {pieces : List (List Char)} (h : p.follow pieces = .ok q)
    (hp : IsWay p.root p.trail) : q.root = p.root ∧ IsWay q.root q.trail := by
  -- A step down adds the entry that was looked up, and `..` leaves what is a way already.
  induction pieces generalizing p with
  | nil =>
      obtain rfl := Except.ok.inj h
      exact ⟨rfl, hp⟩
  | cons piece rest ih =>
      rw [Place.follow] at h
      split at h
      · rename_i entries hentries
        split at h
        · exact ih h hp
        · split at h
          · have hup : IsWay p.root p.trail.tail := hp.tail
            exact @ih { p with trail := p.trail.tail } h hup
          · split at h
            · cases h
            · dsimp only at h
              split at h
              · rename_i found hfound
                have hget : Dictionary.get? (String.ofList piece) p.tree.entries = some found := by
                  rw [hentries]
                  exact hfound
                exact @ih { p with trail := (String.ofList piece, found) :: p.trail } h
                  (.enter hp hget)
              · cases h
      · cases h

theorem follow_append (p : Place) (before after : List (List Char)) :
    p.follow (before ++ after) = (p.follow before).bind (·.follow after) := by
  induction before generalizing p with
  | nil => rfl
  | cons piece rest ih =>
      rw [List.cons_append, Place.follow, Place.follow]
      split
      · split
        · exact ih p
        · split
          · exact ih _
          · split
            · rfl
            · dsimp only
              split
              · exact ih _
              · rfl
      · rfl

/-- A slash at the end leads nowhere else. -/
theorem follow_of_slash {p q : Place} {pieces : List (List Char)}
    (h : p.follow (pieces ++ [[]]) = .ok q) : p.follow pieces = .ok q := by
  rw [follow_append] at h
  obtain ⟨passed, hpassed, h⟩ := bind_eq_ok h
  rw [Place.follow] at h
  split at h
  · rw [if_pos (.inl rfl)] at h
    rwa [Except.ok.inj h] at hpassed
  · cases h

end Follow

/-- The text of a directory with a slash at its end. -/
def slashed (p : Path) : List Char :=
  if p.chars.getLast? == some '/' then p.chars else p.chars ++ ['/']

theorem slashed_eq (p : Path) :
    ∃ before, slashed p = before ++ ['/'] ∧ (p.chars = before ++ ['/'] ∨ p.chars = before) := by
  rw [slashed]
  split
  · rename_i hlast
    obtain ⟨before, hbefore⟩ := List.getLast?_eq_some_iff.mp (eq_of_beq hlast)
    exact ⟨before, hbefore, .inl hbefore⟩
  · exact ⟨p.chars, rfl, .inr rfl⟩

theorem slashed_eq_or (p : Path) : slashed p = p.chars ∨ slashed p = p.chars ++ ['/'] := by
  obtain ⟨before, hslashed, hchars | hchars⟩ := slashed_eq p
  · exact .inl (hslashed.trans hchars.symm)
  · exact .inr (hchars ▸ hslashed)

theorem slashed_ne_nil (p : Path) : slashed p ≠ [] := by
  obtain ⟨before, hbefore, _⟩ := slashed_eq p
  simp [hbefore]

theorem join_eq {p : Path} (hp : p.isEmpty = false) {q : Path} (hq : q.isAbsolute = false) :
    p.join q = ⟨slashed p ++ q.chars⟩ := by
  rw [Path.join, hp, hq, if_neg (by simp), slashed]
  split <;> simp

section Place

variable {root : FileTree} {cwd r r' : Path} {q q' : Place}

theorem isWay_place (h : place root cwd r = .ok q) : q.root = root ∧ IsWay q.root q.trail := by
  obtain ⟨start, hstart, hfollow⟩ := bind_eq_ok h
  obtain ⟨_, hstart⟩ := base_eq_ok hstart
  have hbase : start.root = root ∧ IsWay start.root start.trail := by
    split at hstart
    · rw [← Except.ok.inj hstart]
      exact ⟨rfl, .root⟩
    · exact isWay_follow hstart .root
  obtain ⟨hroot, hway⟩ := isWay_follow hfollow hbase.2
  exact ⟨hroot.trans hbase.1, hway⟩

/-- Paths that name the same file lead to one place, where they lead anywhere. -/
theorem place_unique (hr : place root cwd r = .ok q) (hr' : place root cwd r' = .ok q')
    (hsame : names cwd r = names cwd r') : q = q' := by
  obtain ⟨hroot, hway⟩ := isWay_place hr
  obtain ⟨hroot', hway'⟩ := isWay_place hr'
  have hnames : q.names = q'.names := by
    have hlists : q.names.map String.toList = q'.names.map String.toList := by
      rw [names_place hr, names_place hr', hsame]
    exact List.map_injective_iff.mpr (fun _ _ => String.toList_inj.mp) hlists
  obtain ⟨_, trail⟩ := q
  obtain ⟨_, trail'⟩ := q'
  cases hroot
  cases hroot'
  have htrail : trail = trail' := hway.unique hway' (List.reverse_inj.mp hnames)
  rw [htrail]

theorem isAbsolute_slashed (hr : r.isEmpty = false) (after : List Char) :
    Path.isAbsolute ⟨slashed r ++ after⟩ = r.isAbsolute := by
  obtain ⟨chars⟩ := r
  cases chars with
  | nil => cases hr
  | cons c chars =>
      rw [slashed]
      split <;> rfl

theorem base_slashed {start : Place} (hstart : base root cwd r = .ok start) (after : List Char) :
    base root cwd ⟨slashed r ++ after⟩ =
      if after.contains '\x00' then .error .nullInName
      else if maxPathLength < byteLength (slashed r) + byteLength after then .error .nameTooLong
      else .ok start := by
  obtain ⟨hempty, hbase⟩ := base_eq_ok hstart
  have hnull : r.chars.contains '\x00' = false := by
    cases hnull : r.chars.contains '\x00' with
    | false => rfl
    | true =>
        rw [base_eq, hnull] at hstart
        cases hstart
  have hslashed : (slashed r).contains '\x00' = false := by
    rcases slashed_eq_or r with hslashed | hslashed <;> rw [hslashed] <;> simpa using hnull
  have hall : (slashed r ++ after).contains '\x00' = after.contains '\x00' := by
    rw [List.contains_append, hslashed, Bool.false_or]
  have hempty' : Path.isEmpty ⟨slashed r ++ after⟩ = false := by
    simp [Path.isEmpty, slashed_ne_nil]
  rw [base_eq, hall, hempty', isAbsolute_slashed hempty, hbase, byteLength_append]
  rfl

theorem follow_slashed {start : Place} (hfollow : start.follow r.pieces = .ok q)
    (after : List Char) :
    start.follow (pieces ⟨slashed r ++ after⟩) = q.follow (pieces ⟨after⟩) := by
  obtain ⟨before, hslashed, hchars⟩ := slashed_eq r
  have hpassed : start.follow (pieces ⟨before⟩) = .ok q := by
    rcases hchars with hchars | hchars
    · have hpieces : r.pieces = pieces ⟨before⟩ ++ [[]] := by
        rw [pieces, hchars]
        exact pieces_append before []
      exact follow_of_slash (hpieces ▸ hfollow)
    · rwa [← hchars]
  have hpieces : pieces ⟨slashed r ++ after⟩ = pieces ⟨before⟩ ++ pieces ⟨after⟩ := by
    rw [hslashed, List.append_assoc]
    exact pieces_append before after
  rw [hpieces, follow_append, hpassed]
  rfl

/-- What is written behind a directory is followed from the directory. -/
theorem place_slashed (hr : place root cwd r = .ok q) (after : List Char) :
    place root cwd ⟨slashed r ++ after⟩ =
      if after.contains '\x00' then .error .nullInName
      else if maxPathLength < byteLength (slashed r) + byteLength after then .error .nameTooLong
      else q.follow (pieces ⟨after⟩) := by
  obtain ⟨start, hstart, hfollow⟩ := bind_eq_ok hr
  rw [place, base_slashed hstart]
  split
  · rfl
  · split
    · rfl
    · exact follow_slashed hfollow after

end Place

end LintGate.Proofs.SamePlace
