import Nes.Bus.Memory
import Nes.Cpu.Machine

/-!
# The stack

`Machine.Holds m vs` says that `vs` are the topmost bytes of the stack, the last one pushed in
front.  A push puts a byte in front of them (`Holds.push`), a pull takes it away again
(`Holds.pull`), and words are pushed and pulled as two bytes (`Holds.pushWord`, `Holds.pullWord`).
The stack pointer counts around its page, so that no place of the stack is an exception as long as
less than a page is held.
-/

namespace Nes

theorem toNat_wordOf (low high : UInt8) :
    (wordOf low high).toNat = high.toNat * 256 + low.toNat := by
  have hlow : low.toNat < 2 ^ 8 := low.toNat_lt
  have hhigh : high.toNat <<< 8 % 2 ^ 16 = high.toNat <<< 8 := by
    have := high.toNat_lt
    rw [Nat.shiftLeft_eq]
    omega
  calc (wordOf low high).toNat = high.toNat <<< 8 % 2 ^ 16 ||| low.toNat := by
        simp only [wordOf, UInt16.toNat_or, UInt16.toNat_shiftLeft, UInt8.toNat_toUInt16]
        rfl
    _ = high.toNat * 256 + low.toNat := by
        rw [hhigh, ← Nat.shiftLeft_add_eq_or_of_lt hlow, Nat.shiftLeft_eq]

theorem toNat_highByte (w : UInt16) : (highByte w).toNat = w.toNat / 256 := by
  have := w.toNat_lt
  rw [highByte, UInt16.toNat_toUInt8, UInt16.toNat_shiftRight, Nat.shiftRight_eq_div_pow]
  change w.toNat / 256 % 256 = _
  omega

theorem wordOf_bytes (w : UInt16) : wordOf (lowByte w) (highByte w) = w := by
  have hlow : (lowByte w).toNat = w.toNat % 256 := UInt16.toNat_toUInt8 w
  apply UInt16.toNat_inj.1
  rw [toNat_wordOf, hlow, toNat_highByte]
  omega

theorem Memory.get_zero (addr : UInt16) : zero.get addr = 0 := by
  simp [zero, get]

namespace Machine

theorem stackAddr_inj {a b : UInt8} (h : stackAddr a = stackAddr b) : a = b := by
  have hpage : (256 : UInt8) = 0 := rfl
  have hlow := congrArg UInt16.toUInt8 h
  simpa [stackAddr, hpage] using hlow

/-- The stack is page 1. -/
theorem highByte_stackAddr (sp : UInt8) : highByte (stackAddr sp) = 1 := by
  have hsp : sp.toNat >>> 8 = 0 := by
    rw [Nat.shiftRight_eq_div_pow]
    exact Nat.div_eq_of_lt sp.toNat_lt
  have hor : (stackAddr sp).toNat = 0x100 ||| sp.toNat := UInt16.toNat_or _ _
  apply UInt8.toNat_inj.1
  calc (highByte (stackAddr sp)).toNat = (stackAddr sp).toNat >>> 8 % 2 ^ 8 := by
        rw [highByte, UInt16.toNat_toUInt8, UInt16.toNat_shiftRight]
        rfl
    _ = 1 := by
        rw [hor, Nat.shiftRight_or_distrib, hsp]
        rfl

/-- Less than a page above an address of the stack there is another one. -/
theorem stackAddr_ne (sp : UInt8) {i : Nat} (hi : i < 255) :
    stackAddr sp ≠ stackAddr (sp + 1 + UInt8.ofNat i) := by
  intro h
  have hoffset : (UInt8.ofNat i).toNat = i := UInt8.toNat_ofNat_of_lt' (show i < 256 by omega)
  have hone : (1 : UInt8).toNat = 1 := rfl
  have hsp := sp.toNat_lt
  have hnat := congrArg UInt8.toNat (stackAddr_inj h)
  rw [UInt8.toNat_add, UInt8.toNat_add, hoffset] at hnat
  omega

/-- These are the topmost bytes of the stack. -/
def Holds (m : Machine Memory) (vs : List UInt8) : Prop :=
  ∀ i (hi : i < vs.length), m.bus.get (stackAddr (m.cpu.sp + 1 + UInt8.ofNat i)) = vs[i]

variable {m : Machine Memory} {v : UInt8} {vs : List UInt8}

theorem holds_nil (m : Machine Memory) : m.Holds [] := fun _ hi => absurd hi (Nat.not_lt_zero _)

theorem Holds.push (h : m.Holds vs) (hlength : vs.length < 255) (v : UInt8) :
    (m.push v).Holds (v :: vs) := by
  intro i hi
  change (m.bus.set (stackAddr m.cpu.sp) v).get
    (stackAddr (m.cpu.sp - 1 + 1 + UInt8.ofNat i)) = _
  cases i with
  | zero =>
    have hsp : m.cpu.sp - 1 + 1 + UInt8.ofNat 0 = m.cpu.sp := by
      rw [UInt8.sub_add_cancel]
      exact UInt8.add_zero _
    rw [hsp, Memory.get_set_self]
    rfl
  | succ i =>
    have hvs : i < vs.length := Nat.lt_of_succ_lt_succ hi
    have hsp : m.cpu.sp - 1 + 1 + UInt8.ofNat (i + 1) = m.cpu.sp + 1 + UInt8.ofNat i := by
      grind [UInt8.ofNat_add]
    rw [hsp, Memory.get_set_of_ne _ _ (stackAddr_ne _ (by omega)), h i hvs]
    rfl

theorem Holds.pushWord (h : m.Holds vs) (hlength : vs.length < 254) (w : UInt16) :
    (m.pushWord w).Holds (lowByte w :: highByte w :: vs) :=
  (h.push (by omega) _).push (by rw [List.length_cons]; omega) _

/-- A push changes the page of the stack only. -/
theorem get_push (m : Machine Memory) (v : UInt8) {addr : UInt16} (haddr : highByte addr ≠ 1) :
    (m.push v).bus.get addr = m.bus.get addr := by
  have hne : stackAddr m.cpu.sp ≠ addr := by
    rintro rfl
    exact haddr (highByte_stackAddr _)
  exact Memory.get_set_of_ne _ _ hne

theorem Holds.pull (h : m.Holds (v :: vs)) :
    m.pull = (v, ⟨{ m.cpu with sp := m.cpu.sp + 1 }, m.bus⟩) ∧ m.pull.2.Holds vs := by
  obtain ⟨cpu, bus⟩ := m
  constructor
  · have htop : bus.get (stackAddr (cpu.sp + 1)) = v := by
      have h0 := h 0 (Nat.zero_lt_succ _)
      rwa [show UInt8.ofNat 0 = 0 from rfl, UInt8.add_zero] at h0
    change (bus.get (stackAddr (cpu.sp + 1)), _) = _
    rw [htop]
  · intro i hi
    have hnext := h (i + 1) (Nat.succ_lt_succ hi)
    have hsp : cpu.sp + 1 + UInt8.ofNat (i + 1) = cpu.sp + 1 + 1 + UInt8.ofNat i := by
      grind [UInt8.ofNat_add]
    rw [hsp] at hnext
    exact hnext

theorem Holds.pullWord {w : UInt16} (h : m.Holds (lowByte w :: highByte w :: vs)) :
    m.pullWord = (w, ⟨{ m.cpu with sp := m.cpu.sp + 2 }, m.bus⟩) := by
  obtain ⟨hlow, hrest⟩ := h.pull
  rw [hlow] at hrest
  obtain ⟨hhigh, -⟩ := hrest.pull
  have hsp : m.cpu.sp + 1 + 1 = m.cpu.sp + 2 := UInt8.add_assoc _ _ _
  rw [Machine.pullWord, hlow]
  dsimp only
  rw [hhigh, wordOf_bytes, hsp]

end Machine

end Nes
