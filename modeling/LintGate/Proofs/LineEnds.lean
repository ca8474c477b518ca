import LintGate.Proofs.UnchangedRuns

/-!
Line ends are no changes. However the lines of two texts end, and whether the last ones do, the edit
script is that of the same lines with line feeds; and a script without a change is that of two texts
that are the same but for their line ends.
-/

namespace LintGate.Proofs.LineEnds

open LintGate.Diff
open LintGate.Proofs.UnchangedRuns

inductive LineEnd
  | lineFeed
  | carriageReturn

def LineEnd.chars : LineEnd → List Char
  | .lineFeed => ['\n']
  | .carriageReturn => ['\r', '\n']

/-- The lines one after another, the last one with its line end or without. -/
def written (isEnded : Bool) : List (List Char × LineEnd) → List Char
  | [] => []
  | [(content, lineEnd)] => content ++ if isEnded then lineEnd.chars else []
  | (content, lineEnd) :: next :: rest =>
    content ++ (lineEnd.chars ++ written isEnded (next :: rest))

/-- A text by the contents of its lines and the way in which each of them ends. -/
structure WrittenText where
  lines : List (List Char × LineEnd)
  isEnded : Bool
  content_plain : ∀ line ∈ lines, '\n' ∉ line.1 ∧ line.1.getLast? ≠ some '\r'
  last_ne_nil : ∀ line ∈ lines.getLast?, line.1 ≠ []

namespace WrittenText

def text (t : WrittenText) : String :=
  String.ofList (written t.isEnded t.lines)

/-- The same lines, each of them ended by a line feed. -/
def lineFeeds (t : WrittenText) : WrittenText where
  lines := t.lines.map fun line => (line.1, .lineFeed)
  isEnded := true
  content_plain := by
    intro line hline
    obtain ⟨original, horiginal, rfl⟩ := List.mem_map.mp hline
    exact t.content_plain original horiginal
  last_ne_nil := by
    intro line hline
    rw [List.getLast?_map] at hline
    obtain ⟨original, horiginal, rfl⟩ := Option.map_eq_some_iff.mp hline
    exact t.last_ne_nil original horiginal

end WrittenText

section Normalize

variable {content rest : List Char}

theorem unifyLineEnds_cons {c : Char} (h : c = '\r' → rest.head? ≠ some '\n') :
    unifyLineEnds (c :: rest) = c :: unifyLineEnds rest := by
  refine unifyLineEnds.eq_3 c rest fun tail hc hrest => ?_
  rw [hrest] at h
  exact h hc rfl

theorem unifyLineEnds_of_not_mem (h : '\n' ∉ content) : unifyLineEnds content = content := by
  induction content with
  | nil => rfl
  | cons c content ih =>
      have hcontent : '\n' ∉ content := fun hmem => h (List.mem_cons_of_mem c hmem)
      rw [unifyLineEnds_cons, ih hcontent]
      intro _ hhead
      exact hcontent (List.mem_of_head? hhead)

/-- Whatever ends a line becomes a line feed. -/
theorem unifyLineEnds_append (hplain : '\n' ∉ content) (hlast : content.getLast? ≠ some '\r')
    (lineEnd : LineEnd) (rest : List Char) :
    unifyLineEnds (content ++ (lineEnd.chars ++ rest)) = content ++ '\n' :: unifyLineEnds rest := by
  induction content with
  | nil =>
      cases lineEnd with
      | lineFeed => exact unifyLineEnds_cons nofun
      | carriageReturn => rfl
  | cons c content ih =>
      have hcontent : '\n' ∉ content := fun hmem => hplain (List.mem_cons_of_mem c hmem)
      cases content with
      | nil =>
          have hc : c ≠ '\r' := by simpa using hlast
          rw [List.singleton_append, unifyLineEnds_cons fun h => absurd h hc]
          exact congrArg (c :: ·) (ih List.not_mem_nil nofun)
      | cons d content =>
          have hlast' : (d :: content).getLast? ≠ some '\r' := by
            rwa [List.getLast?_cons_cons] at hlast
          have hd : d ≠ '\n' := by
            rintro rfl
            exact hcontent List.mem_cons_self
          have hnot : c = '\r' → (d :: content ++ (lineEnd.chars ++ rest)).head? ≠ some '\n' :=
            fun _ hhead => hd (Option.some.inj hhead)
          rw [List.cons_append, unifyLineEnds_cons hnot, ih hcontent hlast']
          rfl

theorem endLastLine_append (cs : List Char) (h : rest ≠ []) :
    endLastLine (cs ++ rest) = cs ++ endLastLine rest := by
  obtain ⟨before, last, rfl⟩ := (List.eq_nil_or_concat rest).resolve_left h
  rw [endLastLine, endLastLine, List.concat_eq_append, ← List.append_assoc,
    List.getLast?_concat, List.getLast?_concat]
  dsimp only
  split
  · rw [List.append_assoc]
  · simp only [List.append_assoc]

theorem endLastLine_concat (cs : List Char) : endLastLine (cs ++ ['\n']) = cs ++ ['\n'] := by
  rw [endLastLine_append cs (List.cons_ne_nil _ _)]
  rfl

theorem endLastLine_of_not_mem (hne : content ≠ []) (h : '\n' ∉ content) :
    endLastLine content = content ++ ['\n'] := by
  obtain ⟨before, last, rfl⟩ := (List.eq_nil_or_concat content).resolve_left hne
  have hlast : last ≠ '\n' := by
    rintro rfl
    exact h (by simp)
  rw [endLastLine, List.concat_eq_append, List.getLast?_concat]
  exact if_neg hlast

end Normalize

/-- The form in which a text is compared only knows the contents of its lines. -/
theorem normalize_text (t : WrittenText) :
    Diff.normalize t.text = t.lines.flatMap fun line => line.1 ++ ['\n'] := by
  -- a text without lines, one with a single line, and a line with more behind it
  obtain ⟨lines, isEnded, hplain, hlast⟩ := t
  rw [Diff.normalize, WrittenText.text, String.toList_ofList]
  dsimp only
  fun_induction written isEnded lines with
  | case1 => rfl
  | case2 content lineEnd =>
      obtain ⟨hmem, hreturn⟩ := hplain _ List.mem_cons_self
      rw [List.flatMap_singleton]
      cases isEnded with
      | true =>
          have hunified := unifyLineEnds_append hmem hreturn lineEnd []
          rw [List.append_nil] at hunified
          rw [if_pos rfl, hunified, unifyLineEnds, endLastLine_concat]
      | false =>
          rw [if_neg Bool.false_ne_true, List.append_nil, unifyLineEnds_of_not_mem hmem,
            endLastLine_of_not_mem (hlast (content, lineEnd) rfl) hmem]
  | case3 content lineEnd next rest ih =>
      obtain ⟨hmem, hreturn⟩ := hplain _ List.mem_cons_self
      have hrest := ih (fun line hline => hplain line (List.mem_cons_of_mem _ hline)) hlast
      -- a line feed is added, or not, behind the last line, which is not the first one here
      have hne : unifyLineEnds (written isEnded (next :: rest)) ≠ [] := by
        intro hnil
        rw [hnil] at hrest
        simp [endLastLine] at hrest
      rw [unifyLineEnds_append hmem hreturn, List.append_cons, endLastLine_append _ hne, hrest]
      rfl

theorem normalize_lineFeeds (t : WrittenText) :
    Diff.normalize t.lineFeeds.text = Diff.normalize t.text := by
  rw [normalize_text, normalize_text, WrittenText.lineFeeds, List.flatMap_map]

theorem flatten_extendFirst (c : Char) (ls : List (List Char)) :
    (extendFirst c ls).flatten = c :: ls.flatten := by
  cases ls <;> rfl

/-- No character is lost when a text is taken line by line. -/
theorem flatten_lines (cs : List Char) : (Diff.lines cs).flatten = cs := by
  fun_induction Diff.lines cs with
  | case1 => rfl
  | case2 rest ih => simp [ih]
  | case3 c rest _ hend ih => simp [ih]
  | case4 c rest _ hend ih => rw [flatten_extendFirst, ih]

theorem lines_inj {cs ds : List Char} : Diff.lines cs = Diff.lines ds ↔ cs = ds := by
  constructor
  · intro h
    rw [← flatten_lines cs, h, flatten_lines]
  · rintro rfl
    rfl

section Unchanged

variable {old new : List (List Char)} {entries : List EditEntry} {operations : List Operation}

theorem drop_eq_take_append (ls : List (List Char)) {a b : Nat} (h : a ≤ b) :
    ls.drop a = (ls.drop a).take (b - a) ++ ls.drop b := by
  have hrest : (ls.drop a).drop (b - a) = ls.drop b := by
    rw [List.drop_drop, Nat.add_sub_cancel' h]
  rw [← hrest, List.take_append_drop]

/-- Entries that change nothing lead along the same lines in both texts. -/
theorem drop_eq_of_leads {i j : Nat} (h : Leads old new i j entries)
    (hequal : ∀ e ∈ entries, e.kind = .equal) : old.drop i = new.drop j := by
  induction entries generalizing i j with
  | nil =>
      obtain ⟨rfl, rfl⟩ := h
      rw [List.drop_length, List.drop_length]
  | cons e rest ih =>
      obtain ⟨⟨rfl, rfl, hold, hnew, hpairs⟩, hrest⟩ := h
      obtain ⟨hkind, hkinds⟩ := List.forall_mem_cons.mp hequal
      rw [hkind] at hpairs
      obtain ⟨hlength, hpairs⟩ := hpairs
      calc old.drop e.old.start
          = (old.drop e.old.start).take (e.new.stop - e.new.start) ++ old.drop e.old.stop := by
            rw [← hlength, ← drop_eq_take_append old hold]
        _ = (new.drop e.new.start).take (e.new.stop - e.new.start) ++ new.drop e.new.stop := by
            rw [take_drop_eq hpairs, ih hrest hkinds]
        _ = new.drop e.new.start := (drop_eq_take_append new hnew).symm

theorem eq_of_isUnchanged {s : EditScript} (h : s.Valid old new)
    (hunchanged : s.isUnchanged = true) : old = new := by
  have hequal : ∀ e ∈ s.entries, e.kind = .equal := by
    simpa [EditScript.isUnchanged] using hunchanged
  exact drop_eq_of_leads h.leads hequal

theorem prefixLength_self (lines : Array (List Char)) {i limit : Nat} (h : i + limit ≤ lines.size) :
    (Texts.mk lines lines).prefixLength i i limit = limit := by
  induction limit generalizing i with
  | zero => rfl
  | succ limit ih =>
      have hagree : (Texts.mk lines lines).agree i i = true := by
        simp [Texts.agree, Array.getElem?_eq_getElem (show i < lines.size by omega)]
      rw [Texts.prefixLength, hagree, if_pos rfl, ih (by omega)]

/-- A text and itself agree from the first line to the last, so nothing is left to compare. -/
theorem conquer_self (lines : Array (List Char)) (fuel : Nat) :
    conquer ⟨lines, lines⟩ (fuel + 1) ⟨⟨0, lines.size⟩, ⟨0, lines.size⟩⟩ =
      if lines.size = 0 then [] else [.equal 0 0 lines.size] := by
  have hprefix : (Texts.mk lines lines).prefixLength 0 0 lines.size = lines.size :=
    prefixLength_self lines (Nat.le_of_eq (Nat.zero_add _))
  simp only [conquer, Nat.sub_zero, Nat.min_self, hprefix, Nat.sub_self, Texts.suffixLength,
    if_true, List.append_nil]

theorem shiftFrom_equal (t : Texts) {tag : Tag} (htag : tag ≠ .equal) (room fuel : Nat)
    (before : List Operation) (hequal : ∀ o ∈ operations, o.tag = .equal) :
    shiftFrom t tag room fuel before operations = before.reverse ++ operations := by
  induction operations generalizing fuel before with
  | nil => cases fuel <;> simp [shiftFrom]
  | cons o rest ih =>
      obtain ⟨hown, hrest⟩ := List.forall_mem_cons.mp hequal
      cases fuel with
      | zero => rfl
      | succ fuel =>
          rw [shiftFrom, hown, if_neg htag.symm, ih fuel (o :: before) hrest, List.reverse_cons,
            List.append_assoc, List.singleton_append]

theorem compact_equal (t : Texts) (hequal : ∀ o ∈ operations, o.tag = .equal) :
    compact t operations = operations := by
  have hshift : ∀ tag : Tag, tag ≠ .equal → ∀ room fuel : Nat,
      shiftFrom t tag room fuel [] operations = operations := by
    intro tag htag room fuel
    exact shiftFrom_equal t htag room fuel [] hequal
  simp only [compact, hshift .delete (by decide), hshift .insert (by decide)]

theorem ofLines_self (ls : List (List Char)) :
    ofLines ls ls =
      ⟨if ls.length = 0 then [] else [⟨⟨0, ls.length⟩, ⟨0, ls.length⟩, .equal⟩]⟩ := by
  have hequal : ∀ o ∈ (if ls.length = 0 then [] else [Operation.equal 0 0 ls.length]),
      o.tag = .equal := by
    intro o ho
    split at ho
    · exact absurd ho List.not_mem_nil
    · rw [List.mem_singleton.mp ho]
      rfl
  rw [ofLines]
  dsimp only
  rw [conquer_self, List.size_toArray, compact_equal _ hequal]
  split
  case isTrue => rfl
  case isFalse => simp [merge, mergeFrom, joinTo, Operation.equal, changeEntry, equalEntry]

theorem isUnchanged_self (ls : List (List Char)) : (ofLines ls ls).isUnchanged = true := by
  rw [ofLines_self]
  split <;> rfl

theorem valid_self (ls : List (List Char)) : (ofLines ls ls).Valid ls ls := by
  rw [ofLines_self]
  constructor
  split
  case isTrue hempty => exact ⟨hempty.symm, hempty.symm⟩
  case isFalse =>
    refine ⟨⟨rfl, rfl, Nat.zero_le _, Nat.zero_le _, rfl, ?_⟩, rfl, rfl⟩
    intro k _
    rfl

end Unchanged

/-- How lines end, and whether the last one does, is no change. A text is unchanged from another one
exactly when the two are the same otherwise, if their difference was a valid script. -/
theorem between_lineEnds :
    (∀ reference current : WrittenText,
      EditScript.between reference.text current.text =
        EditScript.between reference.lineFeeds.text current.lineFeeds.text) ∧
    ∀ reference current : String,
      (EditScript.between reference current).Valid (Diff.lines (Diff.normalize reference))
        (Diff.lines (Diff.normalize current)) →
      ((EditScript.between reference current).isUnchanged = true ↔
        Diff.normalize reference = Diff.normalize current) := by
  constructor
  · intro reference current
    rw [EditScript.between, EditScript.between, normalize_lineFeeds, normalize_lineFeeds]
  · intro reference current hvalid
    constructor
    · intro hunchanged
      exact lines_inj.mp (eq_of_isUnchanged hvalid hunchanged)
    · intro hsame
      rw [EditScript.between, hsame]
      exact isUnchanged_self _

/-- A carriage return inside a line stays. -/
def mixedReference : WrittenText where
  lines := [(['a'], .carriageReturn), ([], .lineFeed), (['b', '\r', 'c'], .carriageReturn)]
  isEnded := true
  content_plain := by decide
  last_ne_nil := by decide

def mixedText : WrittenText where
  lines := [(['a'], .lineFeed), ([], .carriageReturn), (['b', '\r', 'c'], .lineFeed)]
  isEnded := false
  content_plain := by decide
  last_ne_nil := by decide

theorem between_lineEnds_mixed :
    EditScript.between mixedReference.text mixedText.text =
        EditScript.between mixedReference.lineFeeds.text mixedText.lineFeeds.text ∧
      (EditScript.between mixedReference.text mixedText.text).Valid
        (Diff.lines (Diff.normalize mixedReference.text))
        (Diff.lines (Diff.normalize mixedText.text)) ∧
      (EditScript.between mixedReference.text mixedText.text).isUnchanged = true ∧
      (EditScript.between editedReference editedText).Valid
        (Diff.lines (Diff.normalize editedReference)) (Diff.lines (Diff.normalize editedText)) ∧
      (EditScript.between editedReference editedText).isUnchanged = false := by
  have hsame : Diff.normalize mixedReference.text = Diff.normalize mixedText.text := by
    rw [normalize_text, normalize_text]
    decide
  have hvalid : (EditScript.between mixedReference.text mixedText.text).Valid
      (Diff.lines (Diff.normalize mixedReference.text))
      (Diff.lines (Diff.normalize mixedText.text)) := by
    rw [EditScript.between, hsame]
    exact valid_self _
  refine ⟨between_lineEnds.1 mixedReference mixedText, hvalid, ?_, by decide +kernel, ?_⟩
  · exact (between_lineEnds.2 mixedReference.text mixedText.text hvalid).mpr hsame
  · refine Bool.eq_false_iff.mpr fun hunchanged => ?_
    exact absurd ((between_lineEnds.2 editedReference editedText (by decide +kernel)).mp hunchanged)
      (by decide +kernel)

end LintGate.Proofs.LineEnds
