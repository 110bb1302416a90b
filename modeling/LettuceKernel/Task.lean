import LettuceKernel.Types
import LettuceKernel.Lib.PackedWord
import Mathlib.Logic.Function.Basic
import Mathlib.Data.List.FinRange
import Mathlib.Algebra.Group.Nat.Defs
/-!
# The task table (`kernel/main/task.c`, `kernel/include/task.h`)

| here | there |
| --- | --- |
| `Task`, `TaskState`, `TaskContext` | task.h:36-79; without the padding, `priority`, `name` and stack bounds, which nothing reads |
| `TrapFrame`          | `LettuceTrapFrame` (arch.h:77) |
| `TaskTable`          | `g_task_table` (task.c:16) |
| `taskInit`           | `lettuce_task_init_subsystem` (task.c:19) |
| `taskCreate`         | `lettuce_task_create` (task.c:51) |
| `taskGet`            | `lettuce_task_get` (task.c:95) |
| `taskTerminate`      | `lettuce_task_terminate` (task.c:118), the table part |
| `taskSetWeight`, `taskSetSlice` | task.c:146, :164 |
| `scanSlot`           | the loop `for (gen = 1; gen <= 10; ++gen)` around `lettuce_task_get` that every scan of the table uses |

A task pointer is its slot. The 32- and 64-bit counters are numbers; sums that can wrap are
taken `% 2 ^ 64`.
-/

namespace Lettuce

/-- `LETTUCE_MAX_TASKS` (task.h:24). -/
abbrev maxTasks : Nat := 16

/-- `LETTUCE_EEVDF_BASE_WEIGHT` (task.h:27). -/
def eevdfBaseWeight : Nat := 1024

/-- `LETTUCE_EEVDF_DEFAULT_SLICE` (task.h:31). -/
def eevdfDefaultSlice : Nat := 5

abbrev TaskId := BitVec 32

/-- A task pointer into the table. -/
abbrev Slot := Fin maxTasks

/-- The slot of the first task created in a fresh table. -/
def firstSlot : Slot := 0

/-- And of the second. -/
def secondSlot : Slot := 1

inductive TaskState where
  | unused | ready | running | sleeping | blocked | terminated
deriving DecidableEq, Repr

/-- `x0`..`x29` and the four registers beside them, as an exception leaves them on the stack. -/
structure TrapFrame where
  x : Fin 30 → Reg
  lr : Reg
  elr : Reg
  spsr : Reg
  spEl0 : Reg

/-- The saved registers of a task; `x 30` is the link register. -/
structure TaskContext where
  x : Fin 31 → Reg
  spEl0 : Reg
  elrEl1 : Reg
  spsrEl1 : Reg

structure Task where
  id : TaskId
  generation : BitVec 16
  serviceId : ServiceId
  domainId : DomainId
  state : TaskState
  weight : Nat
  requestedSliceTicks : Nat
  timeSliceTicks : Nat
  quantumTicks : Nat
  vruntime : Nat
  vdeadline : Nat
  sleepDeadlineTicks : Nat
  totalTicksRun : Nat
  context : TaskContext

abbrev TaskTable := Slot → Task

/-- scheduler.c:142-147. -/
def TrapFrame.save (tf : TrapFrame) : TaskContext where
  x := fun r => if h : r.val < 30 then tf.x ⟨r.val, h⟩ else tf.lr
  spEl0 := tf.spEl0
  elrEl1 := tf.elr
  spsrEl1 := tf.spsr

/-- scheduler.c:195-200: every register of the frame is written. -/
def TaskContext.restore (c : TaskContext) : TrapFrame where
  x := fun r => c.x ⟨r.val, by omega⟩
  lr := c.x 30
  elr := c.elrEl1
  spsr := c.spsrEl1
  spEl0 := c.spEl0

@[simp] theorem TrapFrame.restore_save (tf : TrapFrame) : tf.save.restore = tf := by
  cases tf
  simp [TrapFrame.save, TaskContext.restore]

/-- The context `lettuce_task_create` writes: all registers zero but `sp` and `pc`. -/
def initialContext (entryPc stackTop : Reg) : TaskContext where
  x := fun _ => 0
  spEl0 := stackTop
  elrEl1 := entryPc
  spsrEl1 := 0

def taskInit : TaskTable := fun _ =>
  { id := 0, generation := 1, serviceId := 0, domainId := 0, state := .unused
    weight := eevdfBaseWeight, requestedSliceTicks := eevdfDefaultSlice
    timeSliceTicks := 0, quantumTicks := eevdfDefaultSlice
    vruntime := 0, vdeadline := 0, sleepDeadlineTicks := 0, totalTicksRun := 0
    context := initialContext 0 0 }

/-- `((uint32_t)gen << 16) | slot` -/
def makeTaskId (generation : BitVec 16) (slot : Slot) : TaskId :=
  PackedWord.pack generation (BitVec.ofNat 32 slot.val)

/-- The first slot `lettuce_task_create` may use. -/
def freeTaskSlot (tasks : TaskTable) : Option Slot :=
  (List.finRange maxTasks).find? fun i =>
    (tasks i).state = .unused || (tasks i).state = .terminated

/-- `none` is the null pointer: the table is full. -/
def taskCreate (tasks : TaskTable) (serviceId : ServiceId) (domainId : DomainId) (entryPc stackTop : Reg) :
    TaskTable × Option Slot :=
  match freeTaskSlot tasks with
  | none => (tasks, none)
  | some i =>
    let gen : BitVec 16 := if (tasks i).generation = 0 then 1 else (tasks i).generation
    (Function.update tasks i
      { id := makeTaskId gen i, generation := gen, serviceId, domainId, state := .ready
        weight := eevdfBaseWeight, requestedSliceTicks := eevdfDefaultSlice
        timeSliceTicks := eevdfDefaultSlice, quantumTicks := eevdfDefaultSlice
        vruntime := 0, vdeadline := 0, sleepDeadlineTicks := 0, totalTicksRun := 0
        context := initialContext entryPc stackTop }, some i)

def taskGet (tasks : TaskTable) (id : TaskId) : Option Slot :=
  if h : (PackedWord.low id).toNat < maxTasks then
    let i : Slot := ⟨(PackedWord.low id).toNat, h⟩
    if (tasks i).generation ≠ PackedWord.high id then none
    else if (tasks i).state = .unused then none
    else some i
  else none

/-- The dead record keeps its slot's next generation, which skips 0. -/
def Task.terminate (t : Task) : Task :=
  { t with state := .terminated, generation := if t.generation + 1 = 0 then 1 else t.generation + 1 }

def taskTerminate (tasks : TaskTable) (id : TaskId) : TaskTable :=
  match taskGet tasks id with
  | none => tasks
  | some i => Function.update tasks i (tasks i).terminate

def taskSetWeight (tasks : TaskTable) (i : Slot) (weight : BitVec 32) : TaskTable :=
  let w := if weight.toNat = 0 then 1 else if weight.toNat > 10240 then 10240 else weight.toNat
  Function.update tasks i { tasks i with weight := w }

def taskSetSlice (tasks : TaskTable) (i : Slot) (sliceTicks : BitVec 32) : TaskTable :=
  let n := if sliceTicks.toNat = 0 then 1 else sliceTicks.toNat
  Function.update tasks i { tasks i with requestedSliceTicks := n, quantumTicks := n }

/-- The task a scan finds in `slot`: the generation is guessed from 1 to 10. -/
def scanSlot (tasks : TaskTable) (slot : Slot) : Option Slot :=
  (List.range' 1 10).findSome? fun gen => taskGet tasks (makeTaskId (BitVec.ofNat 16 gen) slot)

/-- The generations a scan tries. -/
def Task.Scanned (t : Task) : Prop := 1 ≤ t.generation.toNat ∧ t.generation.toNat ≤ 10 ∧ t.state ≠ .unused

instance (t : Task) : Decidable t.Scanned := inferInstanceAs (Decidable (_ ∧ _))

/-- Until its first termination every task is seen by the scans. -/
theorem scanned_of_generation {t : Task} (hg : t.generation = 1) (hs : t.state ≠ .unused) : t.Scanned := by
  refine ⟨?_, ?_, hs⟩
  · rw [hg]; decide
  · rw [hg]; decide

/-! ## Identifiers -/

theorem makeTaskId_toNat (g : BitVec 16) (slot : Slot) : (makeTaskId g slot).toNat = g.toNat * 65536 + slot.val := by
  have hs : slot.val < 16 := slot.isLt
  have hlo : (BitVec.ofNat 32 slot.val).toNat = slot.val := by
    rw [BitVec.toNat_ofNat]; omega
  rw [makeTaskId, PackedWord.pack_toNat g (by omega), hlo]

theorem makeTaskId_low (g : BitVec 16) (slot : Slot) : (PackedWord.low (makeTaskId g slot)).toNat = slot.val := by
  have hs : slot.val < 16 := slot.isLt
  rw [PackedWord.low_toNat, makeTaskId_toNat]
  omega

theorem makeTaskId_high (g : BitVec 16) (slot : Slot) : PackedWord.high (makeTaskId g slot) = g := by
  have hs : slot.val < 16 := slot.isLt
  apply BitVec.eq_of_toNat_eq
  rw [PackedWord.high_toNat, makeTaskId_toNat]
  omega

theorem taskGet_makeTaskId (tasks : TaskTable) (g : BitVec 16) (slot : Slot) :
    taskGet tasks (makeTaskId g slot) =
      if (tasks slot).generation = g ∧ (tasks slot).state ≠ .unused then some slot else none := by
  have hlow := makeTaskId_low g slot
  have hslot : (⟨(PackedWord.low (makeTaskId g slot)).toNat, hlow ▸ slot.isLt⟩ : Slot) = slot := Fin.ext hlow
  unfold taskGet
  rw [dif_pos (hlow ▸ slot.isLt)]
  dsimp only
  rw [hslot, makeTaskId_high]
  by_cases hgen : (tasks slot).generation = g
  · by_cases hst : (tasks slot).state = .unused <;> simp [hgen, hst]
  · simp [hgen]

/-- A scan finds a slot's task exactly when its generation is one of 1..10. -/
theorem scanSlot_eq (tasks : TaskTable) (slot : Slot) :
    scanSlot tasks slot = if (tasks slot).Scanned then some slot else none := by
  have hget : ∀ gen : Nat, taskGet tasks (makeTaskId (BitVec.ofNat 16 gen) slot) =
      if (tasks slot).generation = BitVec.ofNat 16 gen ∧ (tasks slot).state ≠ .unused then some slot else none :=
    fun gen => taskGet_makeTaskId tasks _ slot
  unfold scanSlot
  by_cases hs : (tasks slot).Scanned
  · rw [if_pos hs]
    obtain ⟨h1, h10, hst⟩ := hs
    cases hf : (List.range' 1 10).findSome? fun gen => taskGet tasks (makeTaskId (BitVec.ofNat 16 gen) slot) with
    | some i =>
      obtain ⟨gen, -, hgen⟩ := List.exists_of_findSome?_eq_some hf
      rw [hget] at hgen
      split at hgen
      · exact hgen ▸ rfl
      · cases hgen
    | none =>
      rw [List.findSome?_eq_none_iff] at hf
      have hmem : (tasks slot).generation.toNat ∈ List.range' 1 10 := by
        rw [List.mem_range'_1]; omega
      have := hf _ hmem
      rw [hget, if_pos ⟨by simp, hst⟩] at this
      cases this
  · rw [if_neg hs, List.findSome?_eq_none_iff]
    intro gen hmem
    rw [List.mem_range'_1] at hmem
    rw [hget, if_neg]
    rintro ⟨hg, hst⟩
    apply hs
    rw [Task.Scanned, hg, BitVec.toNat_ofNat]
    exact ⟨by omega, by omega, hst⟩

/-! ## The table operations -/

/-- One task is rewritten: what holds of every task still does. -/
theorem every_update {P : Task → Prop} {tasks : TaskTable} (h : ∀ i, P (tasks i)) {i : Slot} {t : Task} (ht : P t) (j : Slot) :
    P (Function.update tasks i t j) :=
  (Function.forall_update_iff tasks fun _ => P).2 ⟨ht, fun k _ => h k⟩ j

/-- One task is rewritten: each task is related to what it was. -/
theorem update_related {R : Task → Task → Prop} (hrefl : ∀ t, R t t) {tasks : TaskTable} {i : Slot} {t : Task}
    (ht : R (tasks i) t) (j : Slot) : R (tasks j) (Function.update tasks i t j) :=
  (Function.forall_update_iff tasks fun k => R (tasks k)).2 ⟨ht, fun k _ => hrefl (tasks k)⟩ j

theorem freeTaskSlot_eq_some {tasks : TaskTable} {i : Slot} (h : freeTaskSlot tasks = some i) :
    (tasks i).state = .unused ∨ (tasks i).state = .terminated := by
  have := List.find?_some h
  simpa using this

end Lettuce
