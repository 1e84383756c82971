import Mathlib
import HeapSampler.Proofs.Export.RoundTrip

/-!
# The limit on an export is exact

A message gets under the limit as it is or not at all, however it is cut into chunks, and the
buffer never holds more than the limit allows.
-/

namespace HeapSampler

namespace BoundedBuffer

structure Within (limit : Nat) (buffer : BoundedBuffer) : Prop where
  limit_eq : buffer.limit = limit
  size_le : buffer.bytes.size ≤ limit

variable {limit : Nat} {buffer later : BoundedBuffer}

theorem Within.size_le_limit (within : buffer.Within limit) :
    buffer.bytes.size ≤ buffer.limit := within.size_le.trans_eq within.limit_eq.symm

theorem Within.of_kept (within : buffer.Within limit)
    (kept : later.limit = buffer.limit ∧ later.bytes.size ≤ later.limit) : later.Within limit := by
  have limit_eq := kept.1.trans within.limit_eq
  exact ⟨limit_eq, kept.2.trans_eq limit_eq⟩

/-- The room in such a buffer is a true difference, which does not start over. -/
theorem Within.room_eq (within : buffer.Within limit) :
    buffer.room = limit - buffer.bytes.size := by
  obtain ⟨rfl, size_le⟩ := within
  exact if_pos size_le

end BoundedBuffer

namespace CoalescingWriter

variable {limit : Nat} {writer after : CoalescingWriter} {done chunks : List (Array UInt8)}
  {chunk : Array UInt8}

/-- A writer on its way: some chunks have been taken, and what was collected of them may have been
passed on at any time. -/
inductive Reaches (limit : Nat) : List (Array UInt8) → CoalescingWriter → Prop where
  | start : Reaches limit [] { buffer := { limit } }
  | took {done : List (Array UInt8)} {writer after : CoalescingWriter} {chunk : Array UInt8}
      (reached : Reaches limit done writer) (written : writer.write? chunk = some after) :
      Reaches limit (done ++ [chunk]) after
  | passed {done : List (Array UInt8)} {writer after : CoalescingWriter}
      (reached : Reaches limit done writer) (flushed : writer.flush? = some after) :
      Reaches limit done after

namespace Reaches

theorem within (reached : Reaches limit done writer) : writer.buffer.Within limit := by
  induction reached with
  | start => exact ⟨rfl, Nat.zero_le _⟩
  | took _ written ih => exact ih.of_kept (within_of_write? ih.size_le_limit written)
  | passed _ flushed ih => exact ih.of_kept (within_of_flush? ih.size_le_limit flushed)

/-- What has been taken is in the buffer or collected, in order and nothing else. -/
theorem content_eq (reached : Reaches limit done writer) :
    writer.content.toList = (done.map Array.toList).flatten := by
  induction reached with
  | start => rfl
  | took _ written ih =>
      rw [content_of_write? written, Array.toList_append, ih, List.map_append, List.flatten_append]
      simp
  | passed _ flushed ih =>
      obtain ⟨bytes_eq, pending_eq⟩ := bytes_of_flush? flushed
      rw [← ih, content, bytes_eq, pending_eq, Array.append_empty]

/-- Writing chunks goes through such writers only. -/
theorem of_foldlM (reached : Reaches limit done writer)
    (written : chunks.foldlM write? writer = some after) :
    Reaches limit (done ++ chunks) after := by
  induction chunks generalizing done writer with
  | nil =>
      cases written
      rwa [List.append_nil]
  | cons chunk rest ih =>
      rw [List.foldlM_cons] at written
      obtain ⟨next, first, later⟩ := Option.bind_eq_some_iff.mp written
      have rest_reached := ih (reached.took first) later
      rwa [List.append_assoc] at rest_reached

end Reaches

end CoalescingWriter

section Export

open Drafting (neededTexts)

variable {tables : Tables} {samples : List Sample}

/-- However a message is cut, it is taken as a whole if it is short enough, and on the way the
buffer keeps the limit and holds a beginning of the message. -/
structure Metered (message : List UInt8) (limit : Nat) (chunks : List (Array UInt8)) : Prop where
  written : (CoalescingWriter.writeAll? limit chunks).map Array.toList =
    if message.length ≤ limit then some message else none
  reaches {done : List (Array UInt8)} {writer : CoalescingWriter} (started : done <+: chunks)
    (collected : done.foldlM CoalescingWriter.write? { buffer := { limit } } = some writer) :
    CoalescingWriter.Reaches limit done writer
  kept {done : List (Array UInt8)} {writer : CoalescingWriter} (started : done <+: chunks)
    (reached : CoalescingWriter.Reaches limit done writer) :
    writer.buffer.Within limit ∧ writer.buffer.room = limit - writer.buffer.bytes.size ∧
      writer.buffer.bytes.toList <+: message

theorem metered_of_flatten {message : List UInt8} {chunks : List (Array UInt8)}
    (cut : (chunks.map Array.toList).flatten = message) (limit : Nat) :
    Metered message limit chunks where
  written := by
    rw [CoalescingWriter.writeAll?_eq, cut]
  reaches started collected := by
    have reached := CoalescingWriter.Reaches.start.of_foldlM collected
    rwa [List.nil_append] at reached
  kept {done writer} started reached := by
    refine ⟨reached.within, reached.within.room_eq, ?_⟩
    obtain ⟨rest, rfl⟩ := started
    have content_eq := reached.content_eq
    rw [CoalescingWriter.content, Array.toList_append] at content_eq
    rw [← cut, List.map_append, List.flatten_append, ← content_eq, List.append_assoc]
    exact List.prefix_append _ _

/--
Samples whose references all lead somewhere have one message, whatever the limit.  It is exported
as it is under each limit that is not below its length; each other limit is reported as exceeded.
However the message is cut into chunks, the buffer never holds more than the limit, so that the
room left in it is a true difference.  Only if the samples need more strings than there are offsets
they have no message, and then under no limit.
-/
theorem limit_exact_of_resolves (resolves : tables.Resolves samples) (timeNanos : Int)
    (durationNanos : Nat) :
    (∃ draft message, Draft.ofSamples tables samples = .ok draft ∧
      (draft.fields { timeNanos, durationNanos }).flatten = message ∧
      ∀ limit,
        encodeProfile tables samples
            { timeNanos, durationNanos, compression := .none, maxBytes := limit } =
          (if message.length ≤ limit then .ok message else .error (.sizeLimitExceeded limit)) ∧
        ∀ chunks : List (Array UInt8), (chunks.map Array.toList).flatten = message →
          Metered message limit chunks) ∨
    2 ^ 32 < (neededTexts tables samples).toFinset.card ∧
      ∀ options, encodeProfile tables samples options = .error .storageFull := by
  rcases Draft.ofSamples_cases resolves with ⟨draft, drafted, -⟩ | ⟨failed, crowded⟩
  · exact .inl ⟨draft, _, drafted, rfl, fun limit =>
      ⟨encodeProfile_eq drafted _, fun chunks cut => metered_of_flatten cut limit⟩⟩
  · refine .inr ⟨crowded.lt_card fun _ => Drafting.mem_neededTexts.mpr, fun options => ?_⟩
    simp only [encodeProfile, failed, bind, Except.bind]

/-- The profile of these samples has 148 bytes. -/
theorem limit_exact_of_workSamples :
    ∃ message : List UInt8,
      encodeProfile workTables workSamples
        { timeNanos := 5, durationNanos := 3, compression := .none, maxBytes := 148 } =
          .ok message ∧
      encodeProfile workTables workSamples
        { timeNanos := 5, durationNanos := 3, compression := .none, maxBytes := 147 } =
          .error (.sizeLimitExceeded 147) ∧
      ∀ chunks : List (Array UInt8), (chunks.map Array.toList).flatten = message →
        Metered message 147 chunks := by
  rcases limit_exact_of_resolves
      (Tables.resolves_of_isSome (by decide) (by decide) : workTables.Resolves workSamples) 5 3 with
    ⟨draft, message, -, -, exported⟩ | ⟨many, -⟩
  · have enough : (encodeProfile workTables workSamples
        { timeNanos := 5, durationNanos := 3, compression := .none, maxBytes := 148 }).isOk =
          true := by decide +kernel
    have short : (encodeProfile workTables workSamples
        { timeNanos := 5, durationNanos := 3, compression := .none, maxBytes := 147 }).isOk =
          false := by decide +kernel
    have fits : message.length ≤ 148 := by
      by_contra large
      rw [(exported 148).1, if_neg large] at enough
      cases enough
    have exceeds : ¬message.length ≤ 147 := by
      intro small
      rw [(exported 147).1, if_pos small] at short
      cases short
    exact ⟨message, (exported 148).1.trans (if_pos fits), (exported 147).1.trans (if_neg exceeds),
      (exported 147).2⟩
  · have few : (neededTexts workTables workSamples).length ≤ 2 ^ 32 := by decide +kernel
    exact absurd many (Nat.not_lt.mpr ((List.toFinset_card_le _).trans few))

end Export

end HeapSampler
