import LettuceKernel.Lib.Translation
import LettuceKernel.Mmu
/-!
# The page tables of the domains (`kernel/arch/arm64/mmu.c`)

| here | there |
| --- | --- |
| `Layout`              | the addresses of the static arrays (mmu.c:116-146) and of `el0_service_code_start` |
| constants             | addresses and descriptor bits (:50-111) |
| `tableDescriptor`, `deviceBlockDescriptor`, `kernelRamBlockDescriptor`, `pageDescriptor` | :262-285 |
| `DomainSpace`, `Layout.space` | the arguments of the three calls of `init_domain_tables` (:506-508) |
| `Layout.initDomainTables` | `init_domain_tables` (:290) |
| `Layout.initTables`   | the part of `lettuce_mmu_init` (:497-524) that writes memory |

`PRIVATE_A_PA` is the constant 0x41000000, not the address of `domain_a_private_page` as for the
other two domains. The page tables of domain A use the constant.
-/

namespace Lettuce

open Translation
open Arch (slotA slotB slotC)

/-- Where the linker put the arrays; the roots of the domains come with `Arch`. -/
structure Layout extends Arch where
  kernelL2Device : Reg
  l2 : Fin 3 → Reg
  l3 : Fin 3 → Reg
  privatePage : Fin 3 → Reg
  stackPage : Fin 3 → Reg
  sharedBufferPage : Reg
  roTestPage : Reg
  el0ServiceCodeStart : Reg

/-! ## Constants -/

def gicPa : Reg := 0x08000000
def uartPa : Reg := 0x09000000
def kernelRamPa : Reg := 0x40000000
def privateAVa : Reg := 0x41000000
def privateAPa : Reg := 0x41000000
def privateBVa : Reg := 0x41100000
def privateCVa : Reg := 0x41180000
def sharedPageVa : Reg := 0x411c0000
def roTestPageVa : Reg := 0x411e0000
def serviceCodeVa : Reg := 0x41050000
def domainAStackVa : Reg := 0x41001000
def domainBStackVa : Reg := 0x41101000
def domainCStackVa : Reg := 0x41181000

def descValid : Reg := 1
def descTable : Reg := 2
def descBlock : Reg := 0
def descPage : Reg := 2
def descAttrNormal : Reg := 0#64 <<< 2
def descAttrDevice : Reg := 1#64 <<< 2
def descApEl1Rw : Reg := 0#64 <<< 6
def descApEl0Rw : Reg := 1#64 <<< 6
def descApEl0Ro : Reg := 3#64 <<< 6
def descShNon : Reg := 0#64 <<< 8
def descShInner : Reg := 3#64 <<< 8
def descAf : Reg := 1#64 <<< 10
def descNg : Reg := 1#64 <<< 11
def descPxn : Reg := 1#64 <<< 53
def descUxn : Reg := 1#64 <<< 54

/-! ## Descriptors -/

def tableDescriptor (table : Reg) : Reg := (table &&& ~~~0xfff#64) ||| descValid ||| descTable

def deviceBlockDescriptor (physical : Reg) : Reg :=
  (physical &&& ~~~0x1fffff#64) ||| descValid ||| descBlock ||| descAf ||| descShNon ||| descAttrDevice ||| descUxn |||
    descPxn ||| descApEl1Rw

def kernelRamBlockDescriptor (physical : Reg) : Reg :=
  (physical &&& ~~~0x1fffff#64) ||| descValid ||| descBlock ||| descAf ||| descShInner ||| descAttrNormal |||
    descApEl1Rw ||| descUxn

def pageDescriptor (physical attributes : Reg) : Reg :=
  (physical &&& ~~~0xfff#64) ||| descValid ||| descPage ||| descAf ||| descShInner ||| attributes

/-- Private, stack and shared pages. -/
def dataAttributes : Reg := descAttrNormal ||| descApEl0Rw ||| descUxn ||| descNg

def codeAttributes : Reg := descAttrNormal ||| descApEl0Ro ||| descPxn ||| descNg

def readOnlyAttributes : Reg := descAttrNormal ||| descApEl0Ro ||| descUxn ||| descNg

/-! ## The tables -/

/-- `(va >> shift) & 0x1ff`. -/
def tableIndex (va : Reg) (shift : Nat) : Nat := ((va >>> shift) &&& 0x1ff#64).toNat

/-- What `init_domain_tables` is called with. -/
structure DomainSpace where
  l1 : Reg
  l2 : Reg
  l3 : Reg
  privateVa : Reg
  privatePa : Reg
  stackVa : Reg
  stackPa : Reg
  includeRoTestPage : Bool

namespace Layout

variable (L : Layout)

/-- Three calls, one for each known domain; the last one stands for domain C. -/
def space (d : DomainId) : DomainSpace :=
  if d = domainA then
    ⟨L.l1Root slotA, L.l2 slotA, L.l3 slotA, privateAVa, privateAPa, domainAStackVa, L.stackPage slotA, true⟩
  else if d = domainB then
    ⟨L.l1Root slotB, L.l2 slotB, L.l3 slotB, privateBVa, L.privatePage slotB, domainBStackVa, L.stackPage slotB,
      false⟩
  else
    ⟨L.l1Root slotC, L.l2 slotC, L.l3 slotC, privateCVa, L.privatePage slotC, domainCStackVa, L.stackPage slotC,
      false⟩

def initDomainTables (m : Memory) (s : DomainSpace) : Memory :=
  let m := zeroArrays m [s.l1, s.l2, s.l3]
  let m := storeWord m s.l1 0 (tableDescriptor L.kernelL2Device)
  let m := storeWord m s.l1 1 (tableDescriptor s.l2)
  let m := storeWord m s.l2 0 (kernelRamBlockDescriptor kernelRamPa)
  let m := storeWord m s.l2 (tableIndex privateAVa 21) (tableDescriptor s.l3)
  let m := storeWord m s.l3 (tableIndex s.privateVa 12) (pageDescriptor s.privatePa dataAttributes)
  let m := storeWord m s.l3 (tableIndex s.stackVa 12) (pageDescriptor s.stackPa dataAttributes)
  let m := storeWord m s.l3 (tableIndex serviceCodeVa 12) (pageDescriptor L.el0ServiceCodeStart codeAttributes)
  let m := storeWord m s.l3 (tableIndex sharedPageVa 12) (pageDescriptor L.sharedBufferPage dataAttributes)
  if s.includeRoTestPage then
    storeWord m s.l3 (tableIndex roTestPageVa 12) (pageDescriptor L.roTestPage readOnlyAttributes)
  else m

/-- The pages that are zeroed before translation is enabled. -/
def dataPages : List Reg :=
  [L.privatePage slotA, L.stackPage slotA, L.privatePage slotB, L.stackPage slotB, L.privatePage slotC,
    L.stackPage slotC, L.sharedBufferPage, L.roTestPage]

def initTables (m : Memory) : Memory :=
  let m := zeroArrays m [L.kernelL2Device]
  let m := storeWord m L.kernelL2Device (tableIndex gicPa 21) (deviceBlockDescriptor gicPa)
  let m := storeWord m L.kernelL2Device (tableIndex uartPa 21) (deviceBlockDescriptor uartPa)
  let m := L.initDomainTables m (L.space domainA)
  let m := L.initDomainTables m (L.space domainB)
  let m := L.initDomainTables m (L.space domainC)
  zeroArrays m L.dataPages

/-- The translation of an address in domain `d`, through its TTBR0 value. -/
def translate (m : Memory) (d : DomainId) (va : Reg) : Option Leaf := walk (L.initTables m) (L.domainTtbr0Val d) va

/-- All arrays, and the page of the service code. -/
def pages : List Reg :=
  [L.kernelL2Device, L.l1Root slotA, L.l2 slotA, L.l3 slotA, L.l1Root slotB, L.l2 slotB, L.l3 slotB, L.l1Root slotC,
    L.l2 slotC, L.l3 slotC] ++ L.dataPages ++ [L.el0ServiceCodeStart]

/-- The arrays are different pages in the 2 MB that "contains _start, kernel text, exception vectors,
data, bss, stack, and page tables" (mmu.c:39-40). -/
structure WellPlaced : Prop where
  distinct : L.pages.Nodup
  aligned : ∀ a ∈ L.pages, PageAligned a
  kernel : ∀ a ∈ L.pages, 0x40000000 ≤ a.toNat ∧ a.toNat ≤ 0x401fffff

end Layout

/-! ## What the tables hold -/

/-- Physical page and attributes that entry `i` of a level 3 table maps. -/
def Layout.mapping (L : Layout) (s : DomainSpace) (i : Nat) : Option (Reg × Reg) :=
  if s.includeRoTestPage = true ∧ i = 480 then some (L.roTestPage, readOnlyAttributes)
  else if i = 448 then some (L.sharedBufferPage, dataAttributes)
  else if i = 80 then some (L.el0ServiceCodeStart, codeAttributes)
  else if i = tableIndex s.stackVa 12 then some (s.stackPa, dataAttributes)
  else if i = tableIndex s.privateVa 12 then some (s.privatePa, dataAttributes)
  else none

/-- The descriptor of a mapping. -/
def mappingDescriptor : Option (Reg × Reg) → Reg
  | some (physical, attributes) => pageDescriptor physical attributes
  | none => 0

theorem tableIndex_lt (va : Reg) (shift : Nat) : tableIndex va shift < 512 := by
  have hle : tableIndex va shift ≤ (0x1ff#64).toNat := by
    rw [tableIndex, BitVec.toNat_and]
    exact Nat.and_le_right
  exact Nat.lt_of_le_of_lt hle (by decide)

/-- The three tables of one domain are pages, and different ones. -/
structure DomainSpace.Tables (s : DomainSpace) : Prop where
  l1 : PageAligned s.l1
  l2 : PageAligned s.l2
  l3 : PageAligned s.l3
  l1_ne_l2 : s.l1 ≠ s.l2
  l1_ne_l3 : s.l1 ≠ s.l3
  l2_ne_l3 : s.l2 ≠ s.l3

section
variable {L : Layout} {m : Memory} {s : DomainSpace} {b : Reg} {j : Nat}

theorem DomainSpace.Tables.aligned (hs : s.Tables) : ∀ a ∈ [s.l1, s.l2, s.l3], PageAligned a := by
  simp only [List.mem_cons, List.not_mem_nil, or_false, forall_eq_or_imp, forall_eq]
  exact ⟨hs.l1, hs.l2, hs.l3⟩

/-- `init_domain_tables` writes its three tables only. -/
theorem initDomainTables_other (hs : s.Tables) (hb : PageAligned b) (hj : j < 512) (h1 : b ≠ s.l1) (h2 : b ≠ s.l2)
    (h3 : b ≠ s.l3) : wordAt (L.initDomainTables m s) b j = wordAt m b j := by
  have hzero : wordAt (zeroArrays m [s.l1, s.l2, s.l3]) b j = wordAt m b j := by
    rw [wordAt_zeroArrays hs.aligned hb hj, if_neg (by simp [h1, h2, h3])]
  have off1 : ∀ m i v, i < 512 → wordAt (storeWord m s.l1 i v) b j = wordAt m b j := fun m i v hi =>
    wordAt_storeWord_other hs.l1 hb hi hj h1
  have off2 : ∀ m i v, i < 512 → wordAt (storeWord m s.l2 i v) b j = wordAt m b j := fun m i v hi =>
    wordAt_storeWord_other hs.l2 hb hi hj h2
  have off3 : ∀ m i v, i < 512 → wordAt (storeWord m s.l3 i v) b j = wordAt m b j := fun m i v hi =>
    wordAt_storeWord_other hs.l3 hb hi hj h3
  unfold Layout.initDomainTables
  cases s.includeRoTestPage with
  | true => simp only [if_true, off3, off2, off1, tableIndex_lt, Nat.reduceLT, hzero]
  | false => simp only [Bool.false_eq_true, if_false, off3, off2, off1, tableIndex_lt, Nat.reduceLT, hzero]

theorem initDomainTables_l1 (hs : s.Tables) (hj : j < 512) :
    wordAt (L.initDomainTables m s) s.l1 j =
      if j = 1 then tableDescriptor s.l2 else if j = 0 then tableDescriptor L.kernelL2Device else 0 := by
  have hzero : wordAt (zeroArrays m [s.l1, s.l2, s.l3]) s.l1 j = 0 := by
    rw [wordAt_zeroArrays hs.aligned hs.l1 hj, if_pos (by simp)]
  have on1 : ∀ m i v, i < 512 → wordAt (storeWord m s.l1 i v) s.l1 j = if j = i then v else wordAt m s.l1 j :=
    fun m i v hi => wordAt_storeWord_same hs.l1 hi hj
  have off2 : ∀ m i v, i < 512 → wordAt (storeWord m s.l2 i v) s.l1 j = wordAt m s.l1 j := fun m i v hi =>
    wordAt_storeWord_other hs.l2 hs.l1 hi hj hs.l1_ne_l2
  have off3 : ∀ m i v, i < 512 → wordAt (storeWord m s.l3 i v) s.l1 j = wordAt m s.l1 j := fun m i v hi =>
    wordAt_storeWord_other hs.l3 hs.l1 hi hj hs.l1_ne_l3
  unfold Layout.initDomainTables
  cases s.includeRoTestPage with
  | true => simp only [if_true, off3, off2, on1, tableIndex_lt, Nat.reduceLT, hzero]
  | false => simp only [Bool.false_eq_true, if_false, off3, off2, on1, tableIndex_lt, Nat.reduceLT, hzero]

theorem initDomainTables_l2 (hs : s.Tables) (hj : j < 512) :
    wordAt (L.initDomainTables m s) s.l2 j =
      if j = 8 then tableDescriptor s.l3 else if j = 0 then kernelRamBlockDescriptor kernelRamPa else 0 := by
  have hzero : wordAt (zeroArrays m [s.l1, s.l2, s.l3]) s.l2 j = 0 := by
    rw [wordAt_zeroArrays hs.aligned hs.l2 hj, if_pos (by simp)]
  have off1 : ∀ m i v, i < 512 → wordAt (storeWord m s.l1 i v) s.l2 j = wordAt m s.l2 j := fun m i v hi =>
    wordAt_storeWord_other hs.l1 hs.l2 hi hj hs.l1_ne_l2.symm
  have on2 : ∀ m i v, i < 512 → wordAt (storeWord m s.l2 i v) s.l2 j = if j = i then v else wordAt m s.l2 j :=
    fun m i v hi => wordAt_storeWord_same hs.l2 hi hj
  have off3 : ∀ m i v, i < 512 → wordAt (storeWord m s.l3 i v) s.l2 j = wordAt m s.l2 j := fun m i v hi =>
    wordAt_storeWord_other hs.l3 hs.l2 hi hj hs.l2_ne_l3
  have hindex : tableIndex privateAVa 21 = 8 := by decide
  unfold Layout.initDomainTables
  cases s.includeRoTestPage with
  | true => simp only [if_true, off3, on2, off1, tableIndex_lt, Nat.reduceLT, hzero, hindex]
  | false => simp only [Bool.false_eq_true, if_false, off3, on2, off1, tableIndex_lt, Nat.reduceLT, hzero, hindex]

theorem initDomainTables_l3 (hs : s.Tables) (hj : j < 512) :
    wordAt (L.initDomainTables m s) s.l3 j = mappingDescriptor (L.mapping s j) := by
  have hzero : wordAt (zeroArrays m [s.l1, s.l2, s.l3]) s.l3 j = 0 := by
    rw [wordAt_zeroArrays hs.aligned hs.l3 hj, if_pos (by simp)]
  have off1 : ∀ m i v, i < 512 → wordAt (storeWord m s.l1 i v) s.l3 j = wordAt m s.l3 j := fun m i v hi =>
    wordAt_storeWord_other hs.l1 hs.l3 hi hj hs.l1_ne_l3.symm
  have off2 : ∀ m i v, i < 512 → wordAt (storeWord m s.l2 i v) s.l3 j = wordAt m s.l3 j := fun m i v hi =>
    wordAt_storeWord_other hs.l2 hs.l3 hi hj hs.l2_ne_l3.symm
  have on3 : ∀ m i v, i < 512 → wordAt (storeWord m s.l3 i v) s.l3 j = if j = i then v else wordAt m s.l3 j :=
    fun m i v hi => wordAt_storeWord_same hs.l3 hi hj
  have hcode : tableIndex serviceCodeVa 12 = 80 := by decide
  have hshared : tableIndex sharedPageVa 12 = 448 := by decide
  have hro : tableIndex roTestPageVa 12 = 480 := by decide
  unfold Layout.initDomainTables Layout.mapping
  cases s.includeRoTestPage with
  | true =>
    simp only [if_true, on3, off2, off1, tableIndex_lt, Nat.reduceLT, hzero, hcode, hshared, hro, true_and]
    repeat' split
    all_goals rfl
  | false =>
    simp only [Bool.false_eq_true, if_false, on3, off2, off1, tableIndex_lt, Nat.reduceLT, hzero, hcode, hshared,
      false_and]
    repeat' split
    all_goals rfl

end

end Lettuce
