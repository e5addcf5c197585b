import Nes.Cpu.Disassembly
import Mathlib.Data.List.GetD

/-!
# The lines of a program

A sweep cuts a program into lines, one instruction after the other.  It moves on by the length of
the instruction, while a line has the bytes that are there; the two agree everywhere but at the end
of the program.  So the bytes of the lines in a row are the program, and a line is what is decoded
at the place that the lines before it lead to (`sweep_partitions`).

All of this comes from one fact: what is left of the lines after some of them is a sweep of what is
left of the program (`sweep_resumes`).
-/

namespace Nes.Cpu.Disassembly

/-- The bytes of some lines in a row. -/
def bytesOf (lines : List Line) : List UInt8 := lines.flatMap (·.bytes)

/-- The number of bytes in the first `k` lines. -/
def offset (lines : List Line) (k : Nat) : Nat := (bytesOf (lines.take k)).length

theorem offset_cons (line : Line) (lines : List Line) (k : Nat) :
    offset (line :: lines) (k + 1) = line.bytes.length + offset lines k :=
  List.length_append

/-! ### One instruction -/

theorem bytes_decode {bytes : List UInt8} (h : bytes ≠ []) (addr : UInt16) :
    (decode bytes addr).bytes = bytes.take (decode bytes addr).instruction.length := by
  have hfull : bytes.isEmpty = false := List.isEmpty_eq_false_iff.2 h
  simp only [decode, hfull, Bool.false_eq_true, ↓reduceIte]
  rfl

theorem length_bytes_decode {bytes : List UInt8} (h : bytes ≠ []) (addr : UInt16) :
    (decode bytes addr).bytes.length =
      min (decode bytes addr).instruction.length bytes.length := by
  rw [bytes_decode h, List.length_take]

/-- Zeros after a list are what is read there anyway. -/
theorem getD_append_zeros (bytes : List UInt8) (n i : Nat) :
    (bytes ++ List.replicate n 0).getD i 0 = bytes.getD i 0 := by
  by_cases hi : i < bytes.length
  · exact List.getD_append _ _ _ _ hi
  · rw [List.getD_append_right _ _ _ _ (Nat.le_of_not_lt hi),
      List.getD_eq_default bytes _ (Nat.le_of_not_lt hi)]
    rw [List.getD_eq_getElem?_getD, List.getElem?_replicate]
    split <;> rfl

/-- An operand that is cut off reads as if zeros came after the program. -/
theorem operand_decode_zeros (bytes : List UInt8) (n : Nat) (addr : UInt16) :
    (decode (bytes ++ List.replicate n 0) addr).operand = (decode bytes addr).operand := by
  have hopcode : (bytes ++ List.replicate n 0).headD 0 = bytes.headD 0 := by
    have hfirst := getD_append_zeros bytes n 0
    rwa [← List.headD_eq_getD, ← List.headD_eq_getD] at hfirst
  have hline : decode (bytes ++ List.replicate n 0) addr =
      { decode bytes addr with bytes := (decode (bytes ++ List.replicate n 0) addr).bytes } := by
    simp only [decode, hopcode, getD_append_zeros]
  rw [hline]
  rfl

/-! ### The sweep -/

/-- A program is empty, or an instruction and what comes after it. -/
@[elab_as_elim]
theorem instructions_induction {motive : List UInt8 → UInt16 → Prop}
    (nil : ∀ addr, motive [] addr)
    (cons : ∀ bytes addr, bytes ≠ [] →
      motive (bytes.drop (decode bytes addr).instruction.length)
        (addr + UInt16.ofNat (decode bytes addr).instruction.length) →
      motive bytes addr)
    (bytes : List UInt8) (addr : UInt16) : motive bytes addr := by
  induction hn : bytes.length using Nat.strongRecOn generalizing bytes addr with
  | ind n ih =>
    by_cases h : bytes = []
    · rw [h]
      exact nil addr
    · have hpos : 0 < (decode bytes addr).instruction.length := Mode.length_pos _
      have hfull : 0 < bytes.length := List.length_pos_iff.2 h
      refine cons bytes addr h (ih _ ?_ _ _ rfl)
      rw [List.length_drop]
      omega

theorem sweepAfter_cons (done : Array Line) {bytes : List UInt8} (h : bytes ≠ []) (addr : UInt16) :
    sweepAfter done bytes addr =
      sweepAfter (done.push (decode bytes addr))
        (bytes.drop (decode bytes addr).instruction.length)
        (addr + UInt16.ofNat (decode bytes addr).instruction.length) := by
  cases bytes with
  | nil => exact absurd rfl h
  | cons opcode rest => exact sweepAfter.eq_2 ..

theorem sweepAfter_eq (done : Array Line) (bytes : List UInt8) (addr : UInt16) :
    sweepAfter done bytes addr = done ++ sweep bytes addr := by
  induction bytes, addr using instructions_induction generalizing done with
  | nil addr => simp [sweep, sweepAfter]
  | cons bytes addr h ih =>
    rw [sweep, sweepAfter_cons done h, sweepAfter_cons #[] h, ih, ih (#[].push _),
      ← Array.append_assoc, Array.append_push, Array.append_empty]

theorem sweep_nil (addr : UInt16) : (sweep [] addr).toList = [] := by
  rw [sweep, sweepAfter]

/-- The first line of a program, and the lines of what comes after its instruction. -/
theorem sweep_cons {bytes : List UInt8} (h : bytes ≠ []) (addr : UInt16) :
    (sweep bytes addr).toList =
      decode bytes addr ::
        (sweep (bytes.drop (decode bytes addr).instruction.length)
          (addr + UInt16.ofNat (decode bytes addr).instruction.length)).toList := by
  rw [sweep, sweepAfter_cons #[] h, sweepAfter_eq, Array.toList_append]
  rfl

/-- **No byte is lost, and none is listed twice.** -/
theorem bytesOf_sweep (bytes : List UInt8) (addr : UInt16) :
    bytesOf (sweep bytes addr).toList = bytes := by
  induction bytes, addr using instructions_induction with
  | nil addr => rw [sweep_nil]; rfl
  | cons bytes addr h ih =>
    rw [sweep_cons h, bytesOf, List.flatMap_cons, ← bytesOf, ih, bytes_decode h,
      List.take_append_drop]

/-- **A sweep can be taken up again.**  What is left of the lines after some of them is a sweep of
what is left of the program. -/
theorem sweep_resumes (bytes : List UInt8) (addr : UInt16) (k : Nat) :
    (sweep bytes addr).toList.drop k =
      (sweep (bytes.drop (offset (sweep bytes addr).toList k))
        (addr + UInt16.ofNat (offset (sweep bytes addr).toList k))).toList := by
  induction bytes, addr using instructions_induction generalizing k with
  | nil addr => simp only [sweep_nil, List.drop_nil]
  | cons bytes addr h ih =>
    cases k with
    | zero =>
      change _ = (sweep bytes (addr + 0)).toList
      rw [UInt16.add_zero, List.drop_zero]
    | succ k =>
      rw [sweep_cons h, List.drop_succ_cons, offset_cons, length_bytes_decode h, ih]
      generalize offset _ k = rest
      generalize (decode bytes addr).instruction.length = length
      by_cases hend : length ≤ bytes.length
      · rw [Nat.min_eq_left hend, List.drop_drop, UInt16.ofNat_add, UInt16.add_assoc]
      · -- The last instruction is cut off, and nothing comes after it.
        rw [Nat.min_eq_right (Nat.le_of_not_le hend), List.drop_drop,
          List.drop_eq_nil_of_le (by omega), List.drop_eq_nil_of_le (by omega), sweep_nil,
          sweep_nil]

theorem length_sweep_le (bytes : List UInt8) (addr : UInt16) :
    (sweep bytes addr).toList.length ≤ bytes.length := by
  induction bytes, addr using instructions_induction with
  | nil addr => rw [sweep_nil]; exact Nat.le_refl 0
  | cons bytes addr h ih =>
    have hpos : 0 < (decode bytes addr).instruction.length := Mode.length_pos _
    have hfull : 0 < bytes.length := List.length_pos_iff.2 h
    rw [List.length_drop] at ih
    rw [sweep_cons h, List.length_cons]
    omega

/-- A line is what is decoded at its place, and lines that follow begin after its instruction. -/
theorem sweep_line (bytes : List UInt8) (origin : UInt16)
    (k : Fin (sweep bytes origin).toList.length) :
    let lines := (sweep bytes origin).toList
    let place := offset lines k
    bytes.drop place ≠ [] ∧
      lines[k] = decode (bytes.drop place) (origin + UInt16.ofNat place) ∧
      (k + 1 < lines.length → lines[k].instruction.length < (bytes.drop place).length) := by
  intro lines place
  have hresumes : lines.drop k = _ := sweep_resumes bytes origin k
  have hline : lines.drop k = lines[k] :: lines.drop (k + 1) := List.drop_eq_getElem_cons k.isLt
  have hfull : bytes.drop place ≠ [] := by
    intro hnil
    rw [hline, hnil, sweep_nil] at hresumes
    cases hresumes
  rw [hline, sweep_cons hfull, List.cons.injEq] at hresumes
  obtain ⟨hdecode, hrest⟩ := hresumes
  refine ⟨hfull, hdecode, fun hmore => Nat.lt_of_not_le fun hend => ?_⟩
  -- Nothing is left for the lines that follow.
  rw [hdecode] at hend
  rw [List.drop_eq_nil_of_le hend, sweep_nil, List.drop_eq_nil_iff] at hrest
  omega

/-- **A sweep partitions the program.**  It ends after at most as many lines as there are bytes, and
the bytes of its lines in a row are the program.  Line `k` lies where the lines before it end,
around the end of the addresses if need be, and is what is decoded there.  It has a byte at least,
and all bytes of its instruction if another line follows; an operand that is cut off by the end of
the program reads as if zeros came after it. -/
theorem sweep_partitions (bytes : List UInt8) (origin : UInt16) :
    let lines := (sweep bytes origin).toList
    bytesOf lines = bytes ∧ lines.length ≤ bytes.length ∧
    ∀ k : Fin lines.length,
      let line := lines[k]
      let place := (bytesOf (lines.take k)).length
      line.addr.toNat = (origin.toNat + place) % 65536 ∧
      line = decode (bytes.drop place) line.addr ∧
      1 ≤ line.bytes.length ∧ line.bytes.length ≤ line.instruction.length ∧
      (k + 1 < lines.length → line.bytes.length = line.instruction.length) ∧
      line.operand = (decode (bytes.drop place ++ [0, 0]) line.addr).operand := by
  intro lines
  refine ⟨bytesOf_sweep bytes origin, length_sweep_le bytes origin, fun k => ?_⟩
  obtain ⟨hfull, hdecode, hmore⟩ := sweep_line bytes origin k
  intro line place
  have haddr : line.addr = origin + UInt16.ofNat place := congrArg Line.addr hdecode
  have hline : line = decode (bytes.drop place) line.addr := by
    rw [haddr]
    exact hdecode
  have hlength : line.bytes.length = min line.instruction.length (bytes.drop place).length := by
    rw [hline]
    exact length_bytes_decode hfull _
  have hinstruction : 0 < line.instruction.length := Mode.length_pos _
  have hleft : 0 < (bytes.drop place).length := List.length_pos_iff.2 hfull
  refine ⟨?_, hline, by omega, by omega, fun hnext => ?_, ?_⟩
  · rw [haddr, UInt16.toNat_add, UInt16.toNat_ofNat', Nat.add_mod_mod]
  · have hlt : line.instruction.length < (bytes.drop place).length := hmore hnext
    omega
  · have hzeros := operand_decode_zeros (bytes.drop place) 2 line.addr
    rw [← hline] at hzeros
    exact hzeros.symm

/-- The second line is cut off by the end of the program, at the end of the addresses too. -/
example : (sweep [0xA9, 0x01, 0xAD] 0xFFFE).toList.map Line.text =
    ["FFFE  A9 01     LDA #$01", "0000  AD        LDA $0000"] := by cbv

end Nes.Cpu.Disassembly
