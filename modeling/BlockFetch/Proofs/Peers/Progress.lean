import BlockFetch.Peer
import Mathlib.Data.List.Induction

/-!
# The progress of a transfer

A transfer is brought up to date by looks at the stream of its peer. Only looks at a block message
count, and only those before the stream was first seen corrupted; whatever it shows afterwards, the
transfer stays as it was. So the progress is told by the list of all looks: the size by the first
count that was made of a body, the number of bytes by the last look that counts, and the time of the
last activity by the last change of that number, be it up or down.
-/
namespace BlockFetch

/-- A look at a stream at some time. -/
structure Look where
  snapshot : StreamSnapshot
  time : Timestamp
  deriving DecidableEq

namespace Look

def isSound (look : Look) : Bool :=
  look.snapshot.phase ≠ .corrupted

def showsBlock (look : Look) : Bool :=
  look.snapshot.isReceivingBlock

def bodySize? (look : Look) : Option UInt64 :=
  if look.snapshot.phase = .readingBody then look.snapshot.message?.map MessageHeader.length
  else none

/-- The looks before the first one at a corrupted stream. -/
def live (looks : List Look) : List Look :=
  looks.takeWhile isSound

/-- The live looks at a block message. -/
def counted (looks : List Look) : List Look :=
  (live looks).filter showsBlock

/-- The size of the first body that was being read. -/
def size? (looks : List Look) : Option UInt64 :=
  (counted looks).findSome? bodySize?

/-- The number of bytes at the last look that counts. -/
def bytes (looks : List Look) : UInt64 :=
  ((counted looks).getLast?.map fun look => look.snapshot.bytesReceived).getD 0

/-- Whether a look after earlier ones counts: no look was at a corrupted stream, and this one is at
a block message. -/
def counts (earlier : List Look) (look : Look) : Bool :=
  (earlier ++ [look]).all isSound && look.showsBlock

/-- Whether a look after earlier ones counts and shows another number of bytes than they did. -/
def bringsBytes (earlier : List Look) (look : Look) : Bool :=
  counts earlier look && look.snapshot.bytesReceived ≠ bytes earlier

/-- The looks, made after some earlier ones, that show another number of bytes than the looks before
them. -/
def arrivalsAfter (earlier : List Look) : List Look → List Look
  | [] => []
  | look :: later =>
    if bringsBytes earlier look then look :: arrivalsAfter (earlier ++ [look]) later
    else arrivalsAfter (earlier ++ [look]) later

def arrivals (looks : List Look) : List Look :=
  arrivalsAfter [] looks

/-! ## One more look -/

theorem live_concat (looks : List Look) (look : Look) :
    live (looks ++ [look]) =
      if (looks ++ [look]).all isSound then live looks ++ [look] else live looks := by
  induction looks with
  | nil => cases sound : look.isSound <;> simp [live, sound]
  | cons first later ih =>
    rw [List.cons_append, live, live, List.takeWhile_cons, List.takeWhile_cons, List.all_cons]
    cases first.isSound with
    | false => rfl
    | true =>
      rw [if_pos rfl, if_pos rfl, Bool.true_and, ← live, ih]
      split <;> rfl

theorem counted_concat (looks : List Look) (look : Look) :
    counted (looks ++ [look]) =
      if counts looks look then counted looks ++ [look] else counted looks := by
  rw [counted, live_concat, counts]
  cases (looks ++ [look]).all isSound with
  | false => rfl
  | true =>
    rw [if_pos rfl, List.filter_append]
    cases shows : look.showsBlock <;> simp [shows, counted]

theorem counts_of_unsound {looks : List Look} {look : Look}
    (h : (looks ++ [look]).all isSound = false) : counts looks look = false := by
  rw [counts, h]
  rfl

/-- As long as no stream was corrupted, the looks at the header of a block count. -/
theorem counts_of_sound {looks : List Look} {look : Look}
    (h : (looks ++ [look]).all isSound = true) :
    counts looks look = (look.snapshot.message?.filter MessageHeader.isBlock).isSome := by
  rw [counts, h, Bool.true_and, Option.isSome_filter]
  rfl

theorem bringsBytes_iff {looks : List Look} {look : Look} :
    bringsBytes looks look = true ↔
      (∀ seen ∈ looks ++ [look], seen.snapshot.phase ≠ .corrupted) ∧
        look.snapshot.isReceivingBlock = true ∧ look.snapshot.bytesReceived ≠ bytes looks := by
  rw [bringsBytes, counts, Bool.and_eq_true, Bool.and_eq_true, List.all_eq_true, and_assoc,
    decide_eq_true_eq]
  simp only [isSound, decide_eq_true_eq]
  rfl

theorem arrivalsAfter_concat (earlier looks : List Look) (look : Look) :
    arrivalsAfter earlier (looks ++ [look]) =
      arrivalsAfter earlier looks ++
        if bringsBytes (earlier ++ looks) look then [look] else [] := by
  induction looks generalizing earlier with
  | nil => simp [arrivalsAfter]
  | cons first later ih =>
    rw [List.cons_append, arrivalsAfter, arrivalsAfter, ih, List.append_assoc,
      List.singleton_append]
    split <;> rfl

theorem arrivals_concat (looks : List Look) (look : Look) :
    arrivals (looks ++ [look]) =
      arrivals looks ++ if bringsBytes looks look then [look] else [] :=
  arrivalsAfter_concat [] looks look

/-- A size that was read is not read again. -/
theorem size?_append {looks : List Look} {size : UInt64} (h : size? looks = some size)
    (later : List Look) : size? (looks ++ later) = some size := by
  induction later using List.reverseRecOn with
  | nil => rwa [List.append_nil]
  | append_singleton past look ih =>
    rw [← List.append_assoc, size?, counted_concat]
    split
    · rw [List.findSome?_append, ← size?, ih]
      rfl
    · exact ih

end Look

namespace Transfer

open Look

variable {block : BlockHash} {attempt : Nat} {start : Timestamp} {looks : List Look}

def afterLooks (block : BlockHash) (attempt : Nat) (start : Timestamp) (looks : List Look) :
    Transfer where
  block := block
  attempt := attempt
  corrupted := !looks.all isSound
  totalBytes? := size? looks
  bytesReceived := bytes looks
  startedAt := start
  lastBytesAt := ((arrivals looks).getLast?.map Look.time).getD start

/-- A look that does not count shows at most that the stream is corrupted. -/
theorem afterLooks_concat_of_not_counts {look : Look} (h : counts looks look = false) :
    afterLooks block attempt start (looks ++ [look]) =
      { afterLooks block attempt start looks with
        corrupted := !(looks ++ [look]).all isSound } := by
  have same : counted (looks ++ [look]) = counted looks := by
    rw [counted_concat, h]
    rfl
  have still : arrivals (looks ++ [look]) = arrivals looks := by
    rw [arrivals_concat, bringsBytes, h]
    exact List.append_nil _
  rw [afterLooks, afterLooks, size?, bytes, same, still]
  rfl

theorem afterLooks_concat_of_counts {look : Look} (h : counts looks look = true) :
    afterLooks block attempt start (looks ++ [look]) =
      { afterLooks block attempt start looks with
        totalBytes? := (size? looks).or look.bodySize?
        bytesReceived := look.snapshot.bytesReceived
        lastBytesAt := if look.snapshot.bytesReceived = bytes looks
          then (afterLooks block attempt start looks).lastBytesAt else look.time } := by
  have sound : (looks ++ [look]).all isSound = true := (Bool.and_eq_true_iff.mp h).1
  have soundBefore : looks.all isSound = true := by
    rw [List.all_append, Bool.and_eq_true] at sound
    exact sound.1
  have more : counted (looks ++ [look]) = counted looks ++ [look] := by
    rw [counted_concat, if_pos h]
  have sized : size? (looks ++ [look]) = (size? looks).or look.bodySize? := by
    rw [size?, more, List.findSome?_append]
    cases size : look.bodySize? <;> simp [size?, size]
  have last : bytes (looks ++ [look]) = look.snapshot.bytesReceived := by
    rw [bytes, more, List.getLast?_concat]
    rfl
  have activity : ((arrivals (looks ++ [look])).getLast?.map Look.time).getD start =
      if look.snapshot.bytesReceived = bytes looks
        then ((arrivals looks).getLast?.map Look.time).getD start else look.time := by
    rw [arrivals_concat, bringsBytes, h]
    by_cases same : look.snapshot.bytesReceived = bytes looks
    · simp [same]
    · simp [same]
  rw [afterLooks, sized, last, activity, sound, afterLooks, soundBefore]

theorem observe_afterLooks (block : BlockHash) (attempt : Nat) (start : Timestamp)
    (looks : List Look) (look : Look) :
    (afterLooks block attempt start looks).observe look.snapshot look.time =
      (afterLooks block attempt start (looks ++ [look]), bringsBytes looks look) := by
  unfold observe
  by_cases broken : (afterLooks block attempt start looks).corrupted = true
  · have unsoundBefore : looks.all isSound = false := by simpa [afterLooks] using broken
    have unsound : (looks ++ [look]).all isSound = false := by
      rw [List.all_append, unsoundBefore, Bool.false_and]
    have ignored := counts_of_unsound unsound
    rw [if_pos broken, afterLooks_concat_of_not_counts ignored, bringsBytes, ignored, unsound]
    simp [afterLooks, unsoundBefore]
  have soundBefore : looks.all isSound = true := by simpa [afterLooks] using broken
  rw [if_neg broken]
  by_cases corrupted : look.snapshot.phase = .corrupted
  · have unsound : (looks ++ [look]).all isSound = false := by simp [isSound, corrupted]
    have ignored := counts_of_unsound unsound
    rw [if_pos corrupted, afterLooks_concat_of_not_counts ignored, bringsBytes, ignored, unsound]
    rfl
  have sound : (looks ++ [look]).all isSound = true := by simp [soundBefore, isSound, corrupted]
  rw [if_neg corrupted]
  cases shown : look.snapshot.message?.filter MessageHeader.isBlock with
  | none =>
    have ignored : counts looks look = false := by
      rw [counts_of_sound sound, shown]
      rfl
    rw [afterLooks_concat_of_not_counts ignored, bringsBytes, ignored, sound]
    simp [afterLooks, soundBefore]
  | some message =>
    have counted : counts looks look = true := by
      rw [counts_of_sound sound, shown]
      rfl
    have received := (Option.filter_eq_some_iff.mp shown).1
    rw [afterLooks_concat_of_counts counted, bringsBytes, counted]
    -- The size is taken only if none is known.
    have total : (if size? looks = none ∧ look.snapshot.phase = .readingBody
        then some message.length else size? looks) = (size? looks).or look.bodySize? := by
      rw [bodySize?, received]
      cases size? looks <;> simp
    by_cases same : look.snapshot.bytesReceived = bytes looks
    · simp [afterLooks, total, same]
    · simp [afterLooks, total, same]

end Transfer

namespace Peer

def observeAll (peer : Peer) (looks : List Look) : Peer :=
  looks.foldl (fun peer look => (peer.observe look.snapshot look.time).1) peer

theorem observeAll_start (peer : Peer) (block : BlockHash) (attempt : Nat) (start : Timestamp)
    (looks : List Look) :
    (peer.start block attempt start).observeAll looks =
      { peer with
        work := .transferring
        transfer? := some (.afterLooks block attempt start looks) } := by
  induction looks using List.reverseRecOn with
  | nil => rfl
  | append_singleton past look ih =>
    rw [observeAll, List.foldl_append, List.foldl_cons, List.foldl_nil, ← observeAll, ih]
    simp only [observe, Transfer.observe_afterLooks]

/-- The progress of a peer that was just given a block is told by all looks at its stream: by the
first size of the block that was shown, by the last number of bytes, and by the last look that
showed another number than before. Such looks are the ones after which bytes are said to have
arrived. Nothing else about the peer changes, and a size that was shown stays. -/
theorem progress_of_looks (peer : Peer) (block : BlockHash) (attempt : Nat) (start : Timestamp)
    (looks : List Look) :
    let observed := (peer.start block attempt start).observeAll
    observed looks =
        { peer with
          work := .transferring
          transfer? := some {
            block := block
            attempt := attempt
            corrupted := decide (∃ look ∈ looks, look.snapshot.phase = .corrupted)
            totalBytes? := Look.size? looks
            bytesReceived := Look.bytes looks
            startedAt := start
            lastBytesAt := ((Look.arrivals looks).getLast?.map Look.time).getD start } } ∧
      (∀ look : Look, ((observed looks).observe look.snapshot look.time).2 = true ↔
        (∀ seen ∈ looks ++ [look], seen.snapshot.phase ≠ .corrupted) ∧
          look.snapshot.isReceivingBlock = true ∧
          look.snapshot.bytesReceived ≠ Look.bytes looks) ∧
      ∀ later size, ((observed looks).transfer?.bind Transfer.totalBytes?) = some size →
        ((observed (looks ++ later)).transfer?.bind Transfer.totalBytes?) = some size := by
  intro observed
  have progress : ∀ looks, observed looks =
      { peer with
        work := .transferring
        transfer? := some (.afterLooks block attempt start looks) } :=
    peer.observeAll_start block attempt start
  refine ⟨?_, fun look => ?_, fun later size known => ?_⟩
  · rw [progress, Transfer.afterLooks]
    have corrupted : (!looks.all Look.isSound) =
        decide (∃ look ∈ looks, look.snapshot.phase = .corrupted) := by
      rw [Bool.eq_iff_iff]
      simp [Look.isSound]
    rw [corrupted]
  · have answer : ((observed looks).observe look.snapshot look.time).2 =
        Look.bringsBytes looks look := by
      rw [progress]
      simp only [observe, Transfer.observe_afterLooks]
    rw [answer]
    exact Look.bringsBytes_iff
  · rw [progress] at known ⊢
    exact Look.size?_append known later

/-- A number of bytes that goes down has changed as well, other messages do not count, and what a
stream shows after it was corrupted is lost. -/
theorem progress_of_looks_broken :
    let block (bytes : UInt64) (phase : StreamPhase) (time : UInt64) : Look :=
      ⟨⟨some ⟨MessageHeader.blockCommand, 900⟩, bytes, phase⟩, ⟨time⟩⟩
    let looks := [block 300 .seekingBody 1, block 200 .readingBody 2,
      ⟨⟨some ⟨"inv", 37⟩, 37, .readingBody⟩, ⟨3⟩⟩, block 200 .readingBody 4]
    let later := [block 400 .corrupted 5, block 500 .readingBody 6]
    let observed := (fresh.start .zero 1 ⟨0⟩).observeAll
    observed (looks ++ later) =
        { fresh with
          work := .transferring
          transfer? := some ⟨.zero, 1, true, some 900, 200, ⟨0⟩, ⟨2⟩⟩ } ∧
      (observed looks).transfer?.bind Transfer.totalBytes? = some 900 ∧
      (observed (looks ++ later)).transfer?.bind Transfer.totalBytes? = some 900 := by
  intro block looks later observed
  obtain ⟨_, _, stays⟩ := progress_of_looks fresh .zero 1 ⟨0⟩ looks
  obtain ⟨progress, _, _⟩ := progress_of_looks fresh .zero 1 ⟨0⟩ (looks ++ later)
  have known : (observed looks).transfer?.bind Transfer.totalBytes? = some 900 := by
    decide +kernel
  have corrupted : ∃ look ∈ looks ++ later, look.snapshot.phase = .corrupted := by decide
  have size : Look.size? (looks ++ later) = some 900 := by decide +kernel
  have bytes : Look.bytes (looks ++ later) = 200 := by decide +kernel
  have activity : ((Look.arrivals (looks ++ later)).getLast?.map Look.time).getD ⟨0⟩ = ⟨2⟩ := by
    decide +kernel
  rw [decide_eq_true corrupted, size, bytes, activity] at progress
  exact ⟨progress, known, stays later 900 known⟩

end Peer
end BlockFetch
