import BlockFetch.Proofs.Lifecycle.Moves
import Mathlib.Algebra.BigOperators.Ring.Finset
import Mathlib.Data.FinEnum
import Mathlib.Data.Fintype.Vector

/-!
# Passages

A passage is a step that may be about many blocks at once. It takes each block from one stage to
another, past milestones of which the story shows all that events announce, and as the rule of the
step allows. Every return to the queue after a failure is counted, so the milestones of all blocks
together account for the counter of the scheduler.
-/
namespace BlockFetch

instance : Finite BlockHash := by
  let toVector : BlockHash → List.Vector UInt8 32 := fun block => ⟨block.bytes, block.length_bytes⟩
  exact Finite.of_injective toVector fun _ _ same => BlockHash.ext (congrArg Subtype.val same)

/-- There are finitely many names of blocks, so something can be added up over all blocks. -/
noncomputable instance : Fintype BlockHash := Fintype.ofFinite BlockHash

/-- What may happen to a block: the stage before, the milestones passed, and the stage after. -/
abbrev Rule := BlockHash → Stage → List Milestone → Stage → Prop

namespace Rule

def still : Rule := fun _ before milestones after => milestones = [] ∧ after = before

def orStill (rule : Rule) : Rule := fun block before milestones after =>
  rule block before milestones after ∨ still block before milestones after

/-- A rule about some blocks; nothing happens to all others. -/
def limitedTo (rule : Rule) (blocks : List BlockHash) : Rule := fun block before milestones after =>
  (block ∈ blocks ∧ rule block before milestones after) ∨
    (block ∉ blocks ∧ still block before milestones after)

def followedBy (first second : Rule) : Rule := fun block before milestones after =>
  ∃ middle early late, milestones = early ++ late ∧ first block before early middle ∧
    second block middle late after

theorem limitedTo_still {rule : Rule} {blocks : List BlockHash} {block : BlockHash} {stage : Stage}
    (h : block ∈ blocks → rule block stage [] stage) :
    rule.limitedTo blocks block stage [] stage := by
  by_cases named : block ∈ blocks
  · exact Or.inl ⟨named, h named⟩
  · exact Or.inr ⟨named, rfl, rfl⟩

theorem limitedTo_orStill {rule : Rule} {blocks : List BlockHash} {block : BlockHash}
    {stage : Stage} : rule.orStill.limitedTo blocks block stage [] stage :=
  limitedTo_still fun _ => Or.inr ⟨rfl, rfl⟩

end Rule

namespace Scheduler

/-- A step takes every block past its milestones as a rule allows. -/
structure Passage (rule : Rule) (milestones : BlockHash → List Milestone) (s t : Scheduler) :
    Prop where
  links : KeepsLinks s t
  settings : t.settings = s.settings
  retries : t.retries = s.retries + ∑ block, (milestones block).count .requeued
  course : ∀ block before, s.InStage block before → ∃ after, t.InStage block after ∧
    t.story block = s.story block ++ published (milestones block) ∧
    rule block before (milestones block) after

/-- A step takes every block past some milestones as a rule allows. -/
def Passes (rule : Rule) (s t : Scheduler) : Prop :=
  ∃ milestones, Passage rule milestones s t

section

variable {s t u : Scheduler} {rule first second : Rule}

theorem Passes.staged (h : Passes rule s t) (staged : s.Staged) : t.Staged := by
  obtain ⟨milestones, passage⟩ := h
  refine ⟨fun block => ?_, passage.links staged.linked⟩
  obtain ⟨before, inBefore⟩ := staged.stage block
  obtain ⟨after, inAfter, _⟩ := passage.course block before inBefore
  exact ⟨after, inAfter⟩

theorem Passes.links (h : Passes rule s t) : KeepsLinks s t := by
  obtain ⟨_, passage⟩ := h
  exact passage.links

theorem Passes.settings (h : Passes rule s t) : t.settings = s.settings := by
  obtain ⟨_, passage⟩ := h
  exact passage.settings

theorem Passes.mono (h : Passes first s t)
    (weaker : ∀ block before milestones after, s.InStage block before →
      first block before milestones after → second block before milestones after) :
    Passes second s t := by
  obtain ⟨milestones, passage⟩ := h
  refine ⟨milestones, passage.links, passage.settings, passage.retries, fun block before inBefore => ?_⟩
  obtain ⟨after, inAfter, told, allowed⟩ := passage.course block before inBefore
  exact ⟨after, inAfter, told, weaker _ _ _ _ inBefore allowed⟩

theorem Passes.limitedTo_orStill {blocks : List BlockHash} (h : Passes (rule.limitedTo blocks) s t) :
    Passes (rule.orStill.limitedTo blocks) s t :=
  h.mono fun _ _ _ _ _ allowed => allowed.imp_left (And.imp_right Or.inl)

theorem Passes.trans (head : Passes first s t) (tail : Passes second t u) :
    Passes (first.followedBy second) s u := by
  obtain ⟨early, head⟩ := head
  obtain ⟨late, tail⟩ := tail
  refine ⟨fun block => early block ++ late block, head.links.trans tail.links,
    tail.settings.trans head.settings, ?_, ?_⟩
  · rw [tail.retries, head.retries, Nat.add_assoc, ← Finset.sum_add_distrib]
    simp only [List.count_append]
  · intro block before inBefore
    obtain ⟨middle, inMiddle, told, allowed⟩ := head.course block before inBefore
    obtain ⟨after, inAfter, toldLater, allowedLater⟩ := tail.course block middle inMiddle
    refine ⟨after, inAfter, ?_, middle, early block, late block, rfl, allowed, allowedLater⟩
    rw [toldLater, told, published_append, List.append_assoc]

theorem Quiet.passes (quiet : Quiet s t) (still : ∀ block stage, rule block stage [] stage) :
    Passes rule s t := by
  refine ⟨fun _ => [], quiet.links, quiet.settings, by simpa using quiet.retries,
    fun block before h => ?_⟩
  have keeps := quiet.keeps block
  exact ⟨before, keeps.inStage h, by simpa [published] using keeps.story, still block before⟩

theorem Quiet.trans_passes (head : Quiet s t) (tail : Passes rule t u) : Passes rule s u := by
  refine ((head.passes fun _ _ => ⟨rfl, rfl⟩ : Passes Rule.still s t).trans tail).mono ?_
  rintro block before milestones after _ ⟨middle, early, late, rfl, ⟨rfl, rfl⟩, allowed⟩
  exact allowed

theorem Passes.trans_quiet (head : Passes rule s t) (tail : Quiet t u) : Passes rule s u := by
  refine (head.trans (tail.passes fun _ _ => ⟨rfl, rfl⟩ : Passes Rule.still t u)).mono ?_
  rintro block before milestones after _ ⟨middle, early, late, rfl, allowed, ⟨rfl, rfl⟩⟩
  rw [List.append_nil]
  exact allowed

/-- A step without milestones is a passage when it takes each block to a stage. -/
theorem passes_of_outbox_eq (links : KeepsLinks s t) (settings : t.settings = s.settings)
    (retries : t.retries = s.retries) (outbox : t.outbox = s.outbox)
    (course : ∀ block before, s.InStage block before →
      ∃ after, t.InStage block after ∧ rule block before [] after) : Passes rule s t := by
  refine ⟨fun _ => [], links, settings, by simpa using retries, fun block before h => ?_⟩
  obtain ⟨after, inAfter, allowed⟩ := course block before h
  exact ⟨after, inAfter, by simp [published, story_congr outbox], allowed⟩

/-- A move of one block to a stage is a passage if the rule allows it and lets the other blocks
stay. -/
theorem Moves.passes {block : BlockHash} {before after : Stage} {milestones : List Milestone}
    (moves : Moves s t block milestones after.standing) (h : s.InStage block before)
    (allowed : rule block before milestones after)
    (still : ∀ other stage, block ≠ other → rule other stage [] stage) : Passes rule s t := by
  classical
  refine ⟨fun other => if block = other then milestones else [], moves.links, moves.settings, ?_,
    ?_⟩
  · rw [moves.retries, Finset.sum_eq_single block]
    · rw [if_pos rfl]
    · intro other _ different
      rw [if_neg different.symm, List.count_nil]
    · exact fun absent => absurd (Finset.mem_univ block) absent
  · intro other stage inStage
    by_cases same : block = other
    · subst same
      simp only [if_true]
      have unique := inStage.unique h
      exact ⟨after, moves.standing, moves.story, unique ▸ allowed⟩
    · have keeps := moves.keeps other same
      simp only [same, if_false]
      exact ⟨stage, keeps.inStage inStage, by simpa [published] using keeps.story,
        still other stage same⟩

theorem Moves.passes_limitedTo {block : BlockHash} {before after : Stage}
    {milestones : List Milestone} (moves : Moves s t block milestones after.standing)
    (h : s.InStage block before) (allowed : rule block before milestones after) :
    Passes (rule.limitedTo [block]) s t :=
  moves.passes h (Or.inl ⟨List.mem_singleton_self block, allowed⟩)
    fun _ _ different =>
      Rule.limitedTo_still fun named => absurd (List.mem_singleton.mp named).symm different

end

/-! ## One step after the other -/

/-- Steps taken for one item after the other, when what a rule allows for all items can be put
together from what it allows for each of them. -/
theorem passes_foldl {σ α : Type} (view : σ → Scheduler) (rule : List α → Rule)
    {step : σ → α → σ} {first : α → Rule} (settings : Settings)
    (still : ∀ block stage, rule [] block stage [] stage)
    (each : ∀ state item, (view state).Staged → (view state).settings = settings →
      Passes (first item) (view state) (view (step state item)))
    (join : ∀ item rest block before milestones after,
      (first item).followedBy (rule rest) block before milestones after →
      rule (item :: rest) block before milestones after)
    (items : List α) (state : σ) (staged : (view state).Staged)
    (same : (view state).settings = settings) :
    Passes (rule items) (view state) (view (items.foldl step state)) := by
  -- The state varies in the induction: what a rule allows says nothing about the state it is left in.
  induction items generalizing state with
  | nil => exact (Quiet.refl _).passes still
  | cons item rest ih =>
    have head := each state item staged same
    have tail := ih (step state item) (head.staged staged) (head.settings.trans same)
    exact (head.trans tail).mono fun block before milestones after _ =>
      join item rest block before milestones after

theorem passes_foldl_limitedTo (rule : Rule) {step : Scheduler → BlockHash → Scheduler}
    (settings : Settings)
    (each : ∀ s block, s.Staged → s.settings = settings →
      Passes (rule.limitedTo [block]) s (step s block))
    (join : ∀ block before early middle late after, rule block before early middle →
      rule block middle late after → rule block before (early ++ late) after)
    (blocks : List BlockHash) {s : Scheduler} (staged : s.Staged) (same : s.settings = settings) :
    Passes (rule.limitedTo blocks) s (blocks.foldl step s) := by
  refine passes_foldl id rule.limitedTo settings
    (fun _ _ => Rule.limitedTo_still fun none => nomatch none) each ?_ blocks s staged same
  rintro first rest block before milestones after ⟨middle, early, late, rfl, head, tail⟩
  rcases head with ⟨here, head⟩ | ⟨elsewhere, rfl, rfl⟩
  · refine Or.inl ⟨List.mem_cons.mpr (Or.inl (List.mem_singleton.mp here)), ?_⟩
    rcases tail with ⟨_, tail⟩ | ⟨_, rfl, rfl⟩
    · exact join _ _ _ _ _ _ head tail
    · rw [List.append_nil]
      exact head
  · rcases tail with ⟨later, tail⟩ | ⟨never, rfl, rfl⟩
    · exact Or.inl ⟨List.mem_cons_of_mem _ later, tail⟩
    · refine Or.inr ⟨fun either => ?_, rfl, rfl⟩
      rcases List.mem_cons.mp either with here | later
      · exact elsewhere (List.mem_singleton.mpr here)
      · exact never later

end Scheduler
end BlockFetch
