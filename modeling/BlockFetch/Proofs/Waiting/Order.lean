import BlockFetch.Backlog
import Mathlib.Data.List.Dedup
import Mathlib.Data.List.Induction

/-!
# The order of added blocks

What becomes of a queue when blocks are put behind it or before it one after the other: those that
wait already keep their place, and of a block that is named more than once the first place counts
behind the queue and the last place before it.
-/
namespace BlockFetch.Backlog

theorem foldl_pushBack (blocks queue : List BlockHash) :
    blocks.foldl pushBack queue = queue ++ blocks.eraseDups.filter (· ∉ queue) := by
  induction blocks using List.reverseRecOn with
  | nil => simp
  | append_singleton earlier last ih =>
    rw [List.foldl_concat, ih, pushBack, List.eraseDups_append, List.filter_append,
      ← List.append_assoc]
    by_cases named : last ∈ earlier
    · have again : [last].removeAll earlier = [] := by simp [List.removeAll, named]
      by_cases queued : last ∈ queue <;> simp [named, queued, again]
    · have first : [last].removeAll earlier = [last] := by simp [List.removeAll, named]
      by_cases queued : last ∈ queue <;> simp [named, queued, first, List.eraseDups_cons]

theorem foldr_pushFront (blocks queue : List BlockHash) :
    blocks.foldr pushFront queue = blocks.dedup.filter (· ∉ queue) ++ queue := by
  induction blocks with
  | nil => simp
  | cons first rest ih =>
    rw [List.foldr_cons, ih, pushFront, List.dedup_cons]
    by_cases named : first ∈ rest
    · by_cases queued : first ∈ queue <;> simp [named, queued]
    · by_cases queued : first ∈ queue <;> simp [named, queued]

/-! ## Blocks that are taken out -/

theorem erase_eq_filter {queue : List BlockHash} (distinct : queue.Nodup) (block : BlockHash) :
    queue.erase block = queue.filter (· ≠ block) := by
  rw [distinct.erase_eq_filter]
  refine List.filter_congr fun other _ => ?_
  by_cases same : other = block <;> simp [same]

theorem pushBack_erase {first second : BlockHash} (different : first ≠ second)
    (queue : List BlockHash) :
    pushBack (queue.erase second) first = (pushBack queue first).erase second := by
  have waits : (queue.erase second).contains first = queue.contains first := by
    rw [Bool.eq_iff_iff, List.contains_iff_mem, List.contains_iff_mem,
      List.mem_erase_of_ne different]
  rw [pushBack, pushBack, waits]
  split
  · rfl
  · by_cases queued : second ∈ queue
    · rw [List.erase_append_left _ queued]
    · rw [List.erase_append_right _ queued, List.erase_of_not_mem queued,
        List.erase_of_not_mem (by simpa using different.symm)]

theorem pushFront_erase {first second : BlockHash} (different : first ≠ second)
    (queue : List BlockHash) :
    pushFront first (queue.erase second) = (pushFront first queue).erase second := by
  have waits : (queue.erase second).contains first = queue.contains first := by
    rw [Bool.eq_iff_iff, List.contains_iff_mem, List.contains_iff_mem,
      List.mem_erase_of_ne different]
  rw [pushFront, pushFront, waits]
  split
  · rfl
  · rw [List.erase_cons_tail (by simpa using different)]

theorem erase_pushBack_self (block : BlockHash) (queue : List BlockHash) :
    (pushBack queue block).erase block = queue.erase block := by
  rw [pushBack]
  split
  · rfl
  · rename_i away
    rw [List.contains_iff_mem] at away
    rw [List.erase_append_right _ away, List.erase_cons_head, List.append_nil,
      List.erase_of_not_mem away]

theorem erase_pushFront_self (block : BlockHash) (queue : List BlockHash) :
    (pushFront block queue).erase block = queue.erase block := by
  rw [pushFront]
  split
  · rfl
  · rename_i away
    rw [List.contains_iff_mem] at away
    rw [List.erase_cons_head, List.erase_of_not_mem away]

/-- Whether a block is added and taken out or not added at all is the same in the end. -/
theorem erase_foldl_pushBack (blocks queue : List BlockHash) (block : BlockHash) :
    (blocks.foldl pushBack queue).erase block =
      (blocks.filter (· ≠ block)).foldl pushBack (queue.erase block) := by
  induction blocks generalizing queue with
  | nil => rfl
  | cons first rest ih =>
    rw [List.foldl_cons, ih]
    by_cases here : first = block
    · simp [here, erase_pushBack_self]
    · simp [here, pushBack_erase here]

theorem erase_foldr_pushFront (blocks queue : List BlockHash) (block : BlockHash) :
    (blocks.foldr pushFront queue).erase block =
      (blocks.filter (· ≠ block)).foldr pushFront (queue.erase block) := by
  induction blocks with
  | nil => rfl
  | cons first rest ih =>
    by_cases here : first = block
    · simpa [here, erase_pushFront_self] using ih
    · simp only [List.foldr_cons, ← pushFront_erase here, ih]
      simp [here]

end BlockFetch.Backlog
