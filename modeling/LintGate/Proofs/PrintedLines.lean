import LintGate.Process.Output
import LintGate.Text.Cut
import Mathlib.Data.List.DropRight
import Mathlib.Data.List.Induction

/-!
What is read of a text that a program prints. The bytes of a text are read as the text, and its
lines are what stands between its line feeds, without the carriage returns at their ends and without
those that are empty then.
-/

namespace LintGate.Proofs.PrintedLines

open LintGate.Text
open LintGate.Text.Utf8

section Decode

variable {byte : UInt8} {rest : List UInt8} {bits low high : Nat}

theorem decodeFrom_first {next : Position} (h : first byte.toNat = (none, next)) :
    decodeFrom .start (byte :: rest) = decodeFrom next rest := by
  rw [decodeFrom, h]

theorem decodeFrom_last (hlow : low ≤ byte.toNat) (hhigh : byte.toNat ≤ high) :
    decodeFrom (.inside 0 bits low high) (byte :: rest) =
      some (Char.ofNat (64 * bits + (byte.toNat - 0x80))) :: decodeFrom .start rest := by
  simp only [decodeFrom, if_pos (And.intro hlow hhigh)]

theorem decodeFrom_inside {owed : Nat} (hlow : low ≤ byte.toNat) (hhigh : byte.toNat ≤ high) :
    decodeFrom (.inside (owed + 1) bits low high) (byte :: rest) =
      decodeFrom (.inside owed (64 * bits + (byte.toNat - 0x80)) 0x80 0xBF) rest := by
  simp only [decodeFrom, if_pos (And.intro hlow hhigh)]

theorem toNat_ofNat_of_lt {n : Nat} (h : n < 256) : (UInt8.ofNat n).toNat = n := by
  simpa using Nat.mod_eq_of_lt h

/-- The bytes after the first one hold six bits each. -/
theorem toNat_tail (n : Nat) : (UInt8.ofNat (n % 64 + 128)).toNat = n % 64 + 128 :=
  toNat_ofNat_of_lt (by omega)

variable {v : Nat}

theorem decodeFrom_one (hv : v ≤ 0x7F) (rest : List UInt8) :
    decodeFrom .start (UInt8.ofNat v :: rest) =
      some (Char.ofNat v) :: decodeFrom .start rest := by
  have hfirst : first v = (some (some (Char.ofNat v)), .start) := by rw [first, if_pos (by omega)]
  rw [decodeFrom, toNat_ofNat_of_lt (by omega), hfirst]

theorem decodeFrom_two (hlow : 0x7F < v) (hhigh : v ≤ 0x7FF) (rest : List UInt8) :
    decodeFrom .start (UInt8.ofNat (v / 64 % 32 + 192) :: UInt8.ofNat (v % 64 + 128) :: rest) =
      some (Char.ofNat v) :: decodeFrom .start rest := by
  have hlead : (UInt8.ofNat (v / 64 % 32 + 192)).toNat = v / 64 + 192 := by
    rw [toNat_ofNat_of_lt (by omega)]
    omega
  have hfirst : first (v / 64 + 192) = (none, .inside 0 (v / 64) 0x80 0xBF) := by
    rw [first, if_neg (by omega), if_neg (by omega), if_pos (by omega), Nat.add_sub_cancel]
  have hbits : 64 * (v / 64) + (v % 64 + 128 - 0x80) = v := by omega
  rw [decodeFrom_first (hlead ▸ hfirst),
    decodeFrom_last (by rw [toNat_tail]; omega) (by rw [toNat_tail]; omega), toNat_tail, hbits]

theorem decodeFrom_three (hlow : 0x7FF < v) (hhigh : v ≤ 0xFFFF)
    (hvalid : v < 0xD800 ∨ 0xDFFF < v) (rest : List UInt8) :
    decodeFrom .start (UInt8.ofNat (v / 4096 % 16 + 224) :: UInt8.ofNat (v / 64 % 64 + 128) ::
        UInt8.ofNat (v % 64 + 128) :: rest) =
      some (Char.ofNat v) :: decodeFrom .start rest := by
  have hlead : (UInt8.ofNat (v / 4096 % 16 + 224)).toNat = v / 4096 + 224 := by
    rw [toNat_ofNat_of_lt (by omega)]
    omega
  have hfirst : first (v / 4096 + 224) =
      (none, .inside 1 (v / 4096) (if v / 4096 + 224 = 0xE0 then 0xA0 else 0x80)
        (if v / 4096 + 224 = 0xED then 0x9F else 0xBF)) := by
    rw [first, if_neg (by omega), if_neg (by omega), if_neg (by omega), if_pos (by omega),
      Nat.add_sub_cancel]
  have hbits : 64 * (64 * (v / 4096) + (v / 64 % 64 + 128 - 0x80)) + (v % 64 + 128 - 0x80) = v := by
    omega
  rw [decodeFrom_first (hlead ▸ hfirst),
    decodeFrom_inside (by rw [toNat_tail]; split <;> omega) (by rw [toNat_tail]; split <;> omega),
    decodeFrom_last (by rw [toNat_tail]; omega) (by rw [toNat_tail]; omega), toNat_tail,
    toNat_tail, hbits]

theorem decodeFrom_four (hlow : 0xFFFF < v) (hhigh : v < 0x110000) (rest : List UInt8) :
    decodeFrom .start (UInt8.ofNat (v / 262144 % 8 + 240) ::
        UInt8.ofNat (v / 4096 % 64 + 128) :: UInt8.ofNat (v / 64 % 64 + 128) ::
        UInt8.ofNat (v % 64 + 128) :: rest) =
      some (Char.ofNat v) :: decodeFrom .start rest := by
  have hlead : (UInt8.ofNat (v / 262144 % 8 + 240)).toNat = v / 262144 + 240 := by
    rw [toNat_ofNat_of_lt (by omega)]
    omega
  have hfirst : first (v / 262144 + 240) =
      (none, .inside 2 (v / 262144) (if v / 262144 + 240 = 0xF0 then 0x90 else 0x80)
        (if v / 262144 + 240 = 0xF4 then 0x8F else 0xBF)) := by
    rw [first, if_neg (by omega), if_neg (by omega), if_neg (by omega), if_neg (by omega),
      if_pos (by omega), Nat.add_sub_cancel]
  have hbits : 64 * (64 * (64 * (v / 262144) + (v / 4096 % 64 + 128 - 0x80)) +
      (v / 64 % 64 + 128 - 0x80)) + (v % 64 + 128 - 0x80) = v := by
    omega
  rw [decodeFrom_first (hlead ▸ hfirst),
    decodeFrom_inside (by rw [toNat_tail]; split <;> omega) (by rw [toNat_tail]; split <;> omega),
    decodeFrom_inside (by rw [toNat_tail]; omega) (by rw [toNat_tail]; omega),
    decodeFrom_last (by rw [toNat_tail]; omega) (by rw [toNat_tail]; omega), toNat_tail,
    toNat_tail, toNat_tail, hbits]

/-- The bytes of a character are read as the character. -/
theorem decodeFrom_encodeChar (c : Char) (rest : List UInt8) :
    decodeFrom .start (String.utf8EncodeChar c ++ rest) = some c :: decodeFrom .start rest := by
  obtain ⟨v, hv⟩ : ∃ v, c.val.toNat = v := ⟨_, rfl⟩
  have hc : Char.ofNat v = c := by
    rw [← hv]
    exact Char.ofNat_toNat c
  have hvalid : v < 0xD800 ∨ 0xDFFF < v ∧ v < 0x110000 := hv ▸ c.valid
  simp only [String.utf8EncodeChar, hv]
  rw [← hc]
  split
  · exact decodeFrom_one (by omega) rest
  · split
    · exact decodeFrom_two (by omega) (by omega) rest
    · split
      · exact decodeFrom_three (by omega) (by omega) (by omega) rest
      · exact decodeFrom_four (by omega) (by omega) rest

theorem decodeFrom_encode (cs : List Char) :
    decodeFrom .start (cs.flatMap String.utf8EncodeChar) = cs.map some := by
  induction cs with
  | nil => rfl
  | cons c cs ih => rw [List.flatMap_cons, decodeFrom_encodeChar, ih, List.map_cons]

theorem decodeLossy_encode (cs : List Char) :
    (decodeLossy (cs.flatMap String.utf8EncodeChar)).toList = cs := by
  rw [decodeLossy, decodeFrom_encode, String.toList_ofList, List.map_map]
  exact List.map_id cs

end Decode

section Lines

/-- Only the character of that name has the byte of a line feed. -/
theorem lineFeed_mem_encodeChar {c : Char} (h : lineFeed ∈ String.utf8EncodeChar c) : c = '\n' := by
  have hbyte {n : Nat} (hn : lineFeed = UInt8.ofNat n) (hlt : n < 256) : n = 10 := by
    rw [← toNat_ofNat_of_lt hlt, ← hn]
    rfl
  simp only [String.utf8EncodeChar] at h
  refine Char.ext (UInt32.toNat_inj.mp ?_)
  change c.val.toNat = 10
  split at h
  · exact hbyte (List.mem_singleton.mp h) (by omega)
  · exfalso
    split at h
    · simp only [List.mem_cons, List.not_mem_nil, or_false] at h
      rcases h with h | h <;> have := hbyte h (by omega) <;> omega
    · split at h
      · simp only [List.mem_cons, List.not_mem_nil, or_false] at h
        rcases h with h | h | h <;> have := hbyte h (by omega) <;> omega
      · simp only [List.mem_cons, List.not_mem_nil, or_false] at h
        rcases h with h | h | h | h <;> have := hbyte h (by omega) <;> omega

theorem splitOn_append_of_not_mem {bytes : List UInt8} (h : lineFeed ∉ bytes)
    (rest : List UInt8) :
    (bytes ++ rest).splitOn lineFeed = (rest.splitOn lineFeed).modifyHead (bytes ++ ·) := by
  induction bytes with
  | nil => cases hrest : rest.splitOn lineFeed <;> simp [hrest]
  | cons b bytes ih =>
      obtain ⟨hb, hbytes⟩ := not_or.mp (mt List.mem_cons.mpr h)
      rw [List.cons_append, List.splitOn_cons_eq_if_modifyHead, if_neg (by simpa using Ne.symm hb),
        ih hbytes]
      cases rest.splitOn lineFeed <;> rfl

/-- The bytes between line feeds are those of the characters between them. -/
theorem splitOn_encode (cs : List Char) :
    (cs.flatMap String.utf8EncodeChar).splitOn lineFeed =
      (cs.splitOn '\n').map (·.flatMap String.utf8EncodeChar) := by
  induction cs with
  | nil => rfl
  | cons c cs ih =>
      rw [List.flatMap_cons, List.splitOn_cons_eq_if_modifyHead]
      by_cases hc : c = '\n'
      · subst hc
        have hfeed : String.utf8EncodeChar '\n' = [lineFeed] := by decide
        rw [hfeed, List.singleton_append, List.splitOn_cons_eq_if_modifyHead, if_pos BEq.rfl,
          if_pos BEq.rfl, ih]
        rfl
      · have hplain : lineFeed ∉ String.utf8EncodeChar c := mt lineFeed_mem_encodeChar hc
        rw [if_neg (by simpa using hc), splitOn_append_of_not_mem hplain, ih]
        cases cs.splitOn '\n' <;> rfl

/-- The text between two line feeds, as it is read. -/
def lineOf (cs : List Char) : String :=
  String.ofList (cs.rdropWhile (· == '\r'))

/-- The lines that are read of a text. -/
def linesOf (cs : List Char) : List String :=
  ((cs.splitOn '\n').map lineOf).filter (!·.isEmpty)

/-- The lines of what a program writes are those of the text it prints. -/
theorem linesOf_encode (s : String) :
    ProcessOutput.linesOf (encode s) = linesOf s.toList := by
  have hlast (pieces : List (List UInt8)) (line : List UInt8 → String) (hline : line [] = "") :
      ((if pieces.getLast? == some [] then pieces.dropLast else pieces).map line).filter
          (!·.isEmpty) = (pieces.map line).filter (!·.isEmpty) := by
    split
    · rename_i h
      obtain ⟨front, rfl⟩ := List.getLast?_eq_some_iff.mp (eq_of_beq h)
      simp [hline]
    · rfl
  rw [ProcessOutput.linesOf, byteLines, hlast _ _ rfl, encode, splitOn_encode, List.map_map,
    linesOf]
  refine congrArg (List.filter _) (List.map_congr_left fun cs _ => ?_)
  simp only [Function.comp_apply, decodeLossy_encode]
  rfl

theorem linesOf_append (a b : List Char) : linesOf (a ++ '\n' :: b) = linesOf a ++ linesOf b := by
  rw [linesOf, List.splitOn_append_cons_self, List.map_append, List.filter_append, linesOf, linesOf]

theorem linesOf_of_not_mem {cs : List Char} (h : '\n' ∉ cs) (hne : lineOf cs ≠ "") :
    linesOf cs = [lineOf cs] := by
  rw [linesOf, List.splitOn_eq_singleton h, List.map_singleton,
    List.filter_cons_of_pos (by simpa using hne), List.filter_nil]

/-- Carriage returns are taken only from the end of a line. -/
theorem lineOf_append_cons {d : Char} (hd : d ≠ '\r') (before after : List Char) :
    (lineOf (before ++ d :: after)).toList = before ++ d :: after.rdropWhile (· == '\r') := by
  rw [lineOf, String.toList_ofList]
  induction after using List.reverseRecOn with
  | nil => exact List.rdropWhile_concat_neg _ _ _ (by simpa using hd)
  | append_singleton after c ih =>
      have hassoc : before ++ d :: (after ++ [c]) = (before ++ d :: after) ++ [c] := by simp
      rw [hassoc, List.rdropWhile_concat, List.rdropWhile_concat, ih]
      split <;> simp

/-- A text with more in it than line ends has a line. -/
theorem linesOf_ne_nil {cs : List Char} {d : Char} (hmem : d ∈ cs) (hfeed : d ≠ '\n')
    (hreturn : d ≠ '\r') : linesOf cs ≠ [] := by
  obtain ⟨piece, hpiece, hd⟩ : ∃ piece ∈ cs.splitOn '\n', d ∈ piece := by
    rw [← List.mem_flatten, ← mem_intercalate_iff hfeed, List.intercalate_splitOn]
    exact hmem
  obtain ⟨before, after, rfl⟩ := List.append_of_mem hd
  refine List.ne_nil_of_mem (List.mem_filter.mpr ⟨List.mem_map_of_mem hpiece, ?_⟩)
  have hline := lineOf_append_cons hreturn before after
  simp [← String.toList_eq_nil_iff, hline]

end Lines

end LintGate.Proofs.PrintedLines
