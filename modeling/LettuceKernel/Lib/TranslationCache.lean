import Mathlib.Logic.Basic
/-!
# A translation cache tagged with address-space identifiers

A cache (TLB) remembers results of table walks. An entry keeps the identifier of the address space it was
walked in, the address it was walked for and the leaf found; it *hits* an address that shares the leaf's page, in
its own space or, when the leaf is global, in any. The hardware may fill and drop entries whenever it
likes.

`WalkFamily` is what the tables of all spaces in use promise together: a leaf translates its whole page,
and a global leaf is the same in all of them. `Coherent` entries are results of that family. Over
such a cache no lookup differs from a walk (`translate_eq`), whatever was filled and dropped,
and although switching spaces drops nothing.
-/

namespace TranslationCache

variable {Asid Va Leaf : Type}

structure Entry (Asid Va Leaf : Type) where
  asid : Asid
  va : Va
  leaf : Leaf
deriving DecidableEq

/-- How leaves are matched: which are global, and which addresses share a page. -/
structure Format (Va Leaf : Type) where
  isGlobal : Leaf → Bool
  samePage : Leaf → Va → Va → Bool

variable (F : Format Va Leaf)

def Entry.hits [DecidableEq Asid] (e : Entry Asid Va Leaf) (asid : Asid) (va : Va) : Bool :=
  (F.isGlobal e.leaf || decide (e.asid = asid)) && F.samePage e.leaf e.va va

abbrev Cache (Asid Va Leaf : Type) := List (Entry Asid Va Leaf)

/-- The first entry that hits; the hardware's choice is the order. -/
def lookup [DecidableEq Asid] (t : Cache Asid Va Leaf) (asid : Asid) (va : Va) : Option Leaf :=
  (t.find? fun e => e.hits F asid va).map Entry.leaf

/-- Through the cache, with the walk of the current tables for what it does not hold. -/
def translate [DecidableEq Asid] (walk : Va → Option Leaf) (t : Cache Asid Va Leaf) (asid : Asid) (va : Va) : Option Leaf :=
  match lookup F t asid va with
  | some leaf => some leaf
  | none => walk va

/-- Remember the walk of `va`, if it ends in a leaf. -/
def fill (walk : Va → Option Leaf) (t : Cache Asid Va Leaf) (asid : Asid) (va : Va) : Cache Asid Va Leaf :=
  match walk va with
  | some leaf => ⟨asid, va, leaf⟩ :: t
  | none => t

/-- Drop the entries of one space; global ones stay. -/
def invalidateAsid [DecidableEq Asid] (t : Cache Asid Va Leaf) (asid : Asid) : Cache Asid Va Leaf :=
  t.filter fun e => F.isGlobal e.leaf || !decide (e.asid = asid)

/-- The tables of the spaces in use. -/
structure WalkFamily (F : Format Va Leaf) (Used : Asid → Prop) (walk : Asid → Va → Option Leaf) : Prop where
  page : ∀ {a va va' leaf}, Used a → walk a va = some leaf → F.samePage leaf va va' = true → walk a va' = some leaf
  shared : ∀ {a a' va leaf}, Used a → Used a' → walk a va = some leaf → F.isGlobal leaf = true → walk a' va = some leaf

/-- Every entry is a walk of the family. -/
def Coherent (Used : Asid → Prop) (walk : Asid → Va → Option Leaf) (t : Cache Asid Va Leaf) : Prop :=
  ∀ e ∈ t, Used e.asid ∧ walk e.asid e.va = some e.leaf

section
variable {F} {Used : Asid → Prop} {walk : Asid → Va → Option Leaf} {t : Cache Asid Va Leaf} {asid : Asid} {va : Va}

theorem coherent_nil : Coherent Used walk [] := fun _ he => absurd he List.not_mem_nil

theorem Coherent.sublist {t' : Cache Asid Va Leaf} (h : Coherent Used walk t) (hsub : t'.Sublist t) :
    Coherent Used walk t' := fun e he => h e (hsub.subset he)

theorem Coherent.fill (h : Coherent Used walk t) (ha : Used asid) {current : Va → Option Leaf}
    (hcurrent : current va = walk asid va) : Coherent Used walk (fill current t asid va) := by
  unfold TranslationCache.fill
  split
  · rename_i leaf hleaf
    intro e he
    rcases List.mem_cons.1 he with rfl | he
    · exact ⟨ha, hcurrent ▸ hleaf⟩
    · exact h e he
  · exact h

variable [DecidableEq Asid]

theorem Coherent.invalidateAsid (h : Coherent Used walk t) (a : Asid) : Coherent Used walk (invalidateAsid F t a) :=
  h.sublist List.filter_sublist

/-- A hit is a walk of the space it hits in. -/
theorem Coherent.hit (h : Coherent Used walk t) (hW : WalkFamily F Used walk) (ha : Used asid) {e : Entry Asid Va Leaf}
    (he : e ∈ t) (hhit : e.hits F asid va = true) : walk asid va = some e.leaf := by
  obtain ⟨hused, hwalk⟩ := h e he
  simp only [Entry.hits, Bool.and_eq_true, Bool.or_eq_true, decide_eq_true_eq] at hhit
  obtain ⟨hspace, hpage⟩ := hhit
  have hthere := hW.page hused hwalk hpage
  rcases hspace with hglobal | hasid
  · exact hW.shared hused ha hthere hglobal
  · exact hasid ▸ hthere

theorem lookup_sound (h : Coherent Used walk t) (hW : WalkFamily F Used walk) (ha : Used asid) {leaf : Leaf}
    (hl : lookup F t asid va = some leaf) : walk asid va = some leaf := by
  obtain ⟨e, he, rfl⟩ := Option.map_eq_some_iff.1 hl
  have hhit := List.find?_some he
  exact h.hit hW ha (List.mem_of_find?_eq_some he) hhit

/-- No stale translation is ever used. -/
theorem translate_eq (h : Coherent Used walk t) (hW : WalkFamily F Used walk) (ha : Used asid) {current : Va → Option Leaf}
    (hcurrent : current va = walk asid va) : translate F current t asid va = walk asid va := by
  unfold translate
  split
  · rename_i leaf hl
    exact (lookup_sound h hW ha hl).symm
  · exact hcurrent

end

end TranslationCache
