import Mathlib.Data.List.Pairwise
import Mathlib.Order.Lattice
import Mathlib.Order.MinMax

/-!
# Heaps that end at a break

A heap is a zone of addresses from a lower end to a break that moves. Moving the
break up hands out the addresses in between as a block; moving it down takes
back what lies above it, and cuts the blocks there.
-/

namespace BreakHeap

variable {α : Type*} [LinearOrder α]

/-- The addresses from `start` to before `stop`. -/
structure Block (α : Type*) where
  start : α
  stop : α

/-- Blocks without a common address. -/
def Apart (b c : Block α) : Prop := b.stop ≤ c.start ∨ c.stop ≤ b.start

/-- What the break leaves of a block. -/
def Block.cut (e : α) (b : Block α) : Block α := ⟨b.start, min b.stop e⟩

/-- The blocks that are left when the break goes down to `e`. -/
def giveBack (e : α) (blocks : List (Block α)) : List (Block α) :=
  (blocks.filter fun b => decide (b.start < e)).map (Block.cut e)

/-- A heap between `lo` and `hi` with its break at `brk`, and the blocks that are handed out. -/
structure Valid (lo hi brk : α) (blocks : List (Block α)) : Prop where
  lower : lo ≤ brk
  upper : brk ≤ hi
  within : ∀ b ∈ blocks, lo ≤ b.start ∧ b.start < b.stop ∧ b.stop ≤ brk
  apart : blocks.Pairwise Apart

variable {lo hi brk e : α} {blocks : List (Block α)}

theorem Valid.empty (h : lo ≤ brk) (h' : brk ≤ hi) : Valid lo hi brk [] :=
  ⟨h, h', fun _ hb => absurd hb List.not_mem_nil, List.Pairwise.nil⟩

/-- A block from the old break to the new one. -/
theorem Valid.grow (h : Valid lo hi brk blocks) (hlt : brk < e) (hle : e ≤ hi) :
    Valid lo hi e (⟨brk, e⟩ :: blocks) where
  lower := h.lower.trans hlt.le
  upper := hle
  within b hb := by
    rcases List.mem_cons.mp hb with rfl | hmem
    · exact ⟨h.lower, hlt, le_rfl⟩
    · obtain ⟨hlo, hne, hbrk⟩ := h.within b hmem
      exact ⟨hlo, hne, hbrk.trans hlt.le⟩
  apart := by
    refine List.Pairwise.cons ?_ h.apart
    intro b hb
    exact .inr (h.within b hb).2.2

theorem Apart.cut {b c : Block α} (h : Apart b c) : Apart (b.cut e) (c.cut e) := by
  rcases h with h | h
  · exact .inl ((min_le_left _ _).trans h)
  · exact .inr ((min_le_left _ _).trans h)

theorem Valid.giveBack (h : Valid lo hi brk blocks) (hlo : lo ≤ e) (hle : e ≤ brk) :
    Valid lo hi e (giveBack e blocks) where
  lower := hlo
  upper := hle.trans h.upper
  within b hb := by
    obtain ⟨c, hc, rfl⟩ := List.mem_map.mp hb
    obtain ⟨hmem, hlt⟩ := List.mem_filter.mp hc
    obtain ⟨hstart, hne, -⟩ := h.within c hmem
    exact ⟨hstart, lt_min hne (of_decide_eq_true hlt), min_le_right _ _⟩
  apart := by
    rw [BreakHeap.giveBack, List.pairwise_map]
    exact (h.apart.filter _).imp fun hapart => hapart.cut

end BreakHeap
