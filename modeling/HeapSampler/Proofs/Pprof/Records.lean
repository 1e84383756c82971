import Mathlib
import HeapSampler.Proofs.Pprof.Messages

/-!
# Profiles record by record

A profile is written as a run of records, each of them a value under the number of its field.
Reading takes the records in as they come: an element goes to the end of its list and a single
number replaces the one before.  What comes out is the mirror of the values that were written.
-/

namespace HeapSampler.Pprof

open HeapSampler.Wire

namespace Outgoing

/-! ## Records -/

inductive Part where
  | sampleType (value : ValueType)
  | sample (value : Sample)
  | location (value : Location)
  | function (value : Function)
  | string (text : String)
  | timeNanos (value : Int64)
  | durationNanos (value : Int64)
  | defaultSampleType (value : Int64)
  deriving DecidableEq, Repr

namespace Part

def number : Part → Nat
  | sampleType _ => 1
  | sample _ => 2
  | location _ => 4
  | function _ => 5
  | string _ => 6
  | timeNanos _ => 9
  | durationNanos _ => 10
  | defaultSampleType _ => 14

def isElement : Part → Bool
  | sampleType _ | sample _ | location _ | function _ | string _ => true
  | timeNanos _ | durationNanos _ | defaultSampleType _ => false

/-- The profile with one more element, or with a number replaced. -/
def addTo (profile : Pprof.Profile) : Part → Pprof.Profile
  | sampleType value => { profile with sampleTypes := profile.sampleTypes ++ [value.received] }
  | sample value => { profile with samples := profile.samples ++ [value.received] }
  | location value => { profile with locations := profile.locations ++ [value.received] }
  | function value => { profile with functions := profile.functions ++ [value.received] }
  | string text => { profile with strings := profile.strings ++ [text] }
  | timeNanos value => { profile with timeNanos := value }
  | durationNanos value => { profile with durationNanos := value }
  | defaultSampleType value => { profile with defaultSampleType := value }

def number? (field : Nat) (part : Part) : Option Int64 :=
  match part with
  | timeNanos value | durationNanos value | defaultSampleType value =>
      if part.number = field then some value else none
  | _ => none

end Part

def latest (field : Nat) (parts : List Part) : Int64 :=
  (parts.filterMap (Part.number? field)).getLast?.getD 0

/-- The values as a reader is to see them: the elements of each list in order, and of each number
the last. -/
def mirror (parts : List Part) : Pprof.Profile where
  sampleTypes := parts.filterMap fun
    | .sampleType value => some value.received
    | _ => none
  samples := parts.filterMap fun
    | .sample value => some value.received
    | _ => none
  locations := parts.filterMap fun
    | .location value => some value.received
    | _ => none
  functions := parts.filterMap fun
    | .function value => some value.received
    | _ => none
  strings := parts.filterMap fun
    | .string text => some text
    | _ => none
  timeNanos := latest 9 parts
  durationNanos := latest 10 parts
  defaultSampleType := latest 14 parts

/-- A value for a profile, with the choice whether it is left out when blank. -/
structure Record where
  omitBlank : Bool
  part : Part
  deriving DecidableEq, Repr

namespace Record

def ofField {γ : Sort*}
    (say : {β : Type} → [DecidableEq β] → [Payload β] → NumberedField β → γ) (record : Record) :
    γ :=
  match record.part with
  | .sampleType value => say ⟨1, record.omitBlank, value⟩
  | .sample value => say ⟨2, record.omitBlank, value⟩
  | .location value => say ⟨4, record.omitBlank, value⟩
  | .function value => say ⟨5, record.omitBlank, value⟩
  | .string text => say ⟨6, record.omitBlank, text⟩
  | .timeNanos value => say ⟨9, record.omitBlank, value⟩
  | .durationNanos value => say ⟨10, record.omitBlank, value⟩
  | .defaultSampleType value => say ⟨14, record.omitBlank, value⟩

def encode (record : Record) : List UInt8 :=
  record.ofField NumberedField.encode

def isOmitted (record : Record) : Bool :=
  record.ofField NumberedField.isOmitted

def payloadSize (record : Record) : Nat :=
  record.ofField fun field => Payload.size field.value

/-- The word in front of the payload is wide enough for its length. -/
def Fits (record : Record) : Prop :=
  record.payloadSize < 2 ^ 64

instance (record : Record) : Decidable record.Fits :=
  inferInstanceAs (Decidable (record.payloadSize < 2 ^ 64))

end Record

/-- The values of the records that leave something in the bytes. -/
def written (records : List Record) : List Part :=
  (records.filter (!·.isOmitted)).map Record.part

/-- Records as a profile takes them: every element is written, and a number is given once. -/
structure Record.Regular (records : List Record) : Prop where
  elements : ∀ record ∈ records, record.part.isElement = true → record.omitBlank = false
  once : (records.map Record.part).Pairwise fun earlier later =>
    earlier.number = later.number → earlier.isElement = true

/-! ## What is read -/

theorem latest_append (field : Nat) (parts : List Part) (part : Part) :
    latest field (parts ++ [part]) = (part.number? field).getD (latest field parts) := by
  cases given : part.number? field <;> simp [latest, List.filterMap_append, given]

/-- One more value changes what is read as one more record does. -/
theorem mirror_append (parts : List Part) (part : Part) :
    mirror (parts ++ [part]) = part.addTo (mirror parts) := by
  cases part <;> simp [mirror, Part.addTo, latest_append, Part.number?, Part.number]

theorem Record.isOmitted_eq_false {record : Record} (kept : record.omitBlank = false) :
    record.isOmitted = false := by
  unfold isOmitted ofField
  split <;> simp [NumberedField.isOmitted, kept]

section Fields

variable {α β : Type} [Absorb α] [DecidableEq β] [Payload β] {levels number : Nat}
  {before after : α} {omitBlank : Bool} {value : β}

theorem not_blank_of_written {claim : Prop}
    (written : (⟨number, omitBlank, value⟩ : NumberedField β).isOmitted = false)
    (blank : value = Payload.blank) (omits : omitBlank = true) : claim := by
  simp [NumberedField.isOmitted, blank, omits] at written

theorem takes_written_word [Word β] (usable : IsFieldNumber number)
    (written : (⟨number, omitBlank, value⟩ : NumberedField β).isOmitted = false)
    (absorbed : Absorb.absorb levels before (number, .varint (Word.word value)) = some after) :
    Takes levels (⟨number, omitBlank, value⟩ : NumberedField β).encode before after :=
  takes_word usable (not_blank_of_written written) absorbed

theorem takes_written_delimited [Payload.Exact β] (kind_eq : Payload.kind β = .delimited)
    (usable : IsFieldNumber number) (fits : Payload.size value < 2 ^ 64)
    (written : (⟨number, omitBlank, value⟩ : NumberedField β).isOmitted = false)
    (absorbed : Absorb.absorb levels before (number, .delimited (Payload.encode value)) =
      some after) :
    Takes levels (⟨number, omitBlank, value⟩ : NumberedField β).encode before after := by
  rw [Payload.Exact.size_eq_length] at fits
  exact takes_delimited kind_eq usable fits (not_blank_of_written written) absorbed

end Fields

/-- A record that leaves something in the bytes adds its value to what has been read. -/
theorem Record.takes_addTo {record : Record} (fits : record.Fits)
    (written : record.isOmitted = false) (before : Pprof.Profile) :
    Takes 100 record.encode before (record.part.addTo before) := by
  obtain ⟨omitBlank, part⟩ := record
  cases part with
  | sampleType value =>
      exact takes_written_delimited rfl (by decide) fits written
        (congrArg (Option.map _) (message?_valueType value))
  | sample value =>
      have bounded : (Payload.encode value).length < 2 ^ 64 := by
        rw [← Payload.Exact.size_eq_length]
        exact fits
      exact takes_written_delimited rfl (by decide) fits written
        (congrArg (Option.map _) (message?_sample value bounded))
  | location value =>
      exact takes_written_delimited rfl (by decide) fits written
        (congrArg (Option.map _) (message?_location value))
  | function value =>
      exact takes_written_delimited rfl (by decide) fits written
        (congrArg (Option.map _) (message?_function value))
  | string text =>
      exact takes_written_delimited rfl (by decide) fits written
        (congrArg (Option.map _) (Wire.fromUTF8?_toUTF8 text))
  | timeNanos value =>
      exact takes_written_word (by decide) written (by simp [Absorb.absorb, Part.addTo])
  | durationNanos value =>
      exact takes_written_word (by decide) written (by simp [Absorb.absorb, Part.addTo])
  | defaultSampleType value =>
      exact takes_written_word (by decide) written (by simp [Absorb.absorb, Part.addTo])

/-- A record that leaves nothing in the bytes leaves what has been read as it is. -/
theorem Record.encode_of_isOmitted {record : Record} (omitted : record.isOmitted = true) :
    record.encode = [] := by
  obtain ⟨omitBlank, part⟩ := record
  cases part <;> exact NumberedField.encode_of_isOmitted omitted

theorem written_append (done : List Record) (record : Record) :
    written (done ++ [record]) =
      if record.isOmitted then written done else written done ++ [record.part] := by
  cases omitted : record.isOmitted <;> simp [written, List.filter_append, omitted]

/-- After any records a reader has the mirror of the values that were written. -/
theorem takes_records {records : List Record} (fits : ∀ record ∈ records, record.Fits) :
    Takes 100 (records.flatMap Record.encode) Absorb.blank (mirror (written records)) := by
  have step : ∀ record ∈ records, ∀ done : List Record, Takes 100 record.encode
      (mirror (written done)) (mirror (written (done ++ [id record]))) := by
    intro record listed done
    rw [id, written_append]
    cases omitted : record.isOmitted with
    | true =>
        rw [Record.encode_of_isOmitted omitted, if_pos rfl]
        exact .nil 100 _
    | false =>
        rw [if_neg Bool.false_ne_true, mirror_append]
        exact Record.takes_addTo (fits record listed) omitted _
  have taken := Takes.flatMap (fun done => mirror (written done)) step []
  rw [List.map_id] at taken
  exact taken

/-! ## Regular records -/

theorem Part.of_number? {field : Nat} {part : Part} {value : Int64}
    (given : part.number? field = some value) :
    part.number = field ∧ part.isElement = false := by
  cases part with
  | timeNanos _ | durationNanos _ | defaultSampleType _ =>
      exact ⟨(Option.ite_none_right_eq_some.mp given).1, rfl⟩
  | _ => cases given

/-- A number that is left out is zero. -/
theorem Record.eq_zero_of_isOmitted {record : Record} (omitted : record.isOmitted = true)
    {field : Nat} {value : Int64} (given : record.part.number? field = some value) :
    value = 0 := by
  obtain ⟨omitBlank, part⟩ := record
  cases part with
  | timeNanos _ | durationNanos _ | defaultSampleType _ =>
      cases (Option.ite_none_right_eq_some.mp given).2
      exact eq_blank_of_isOmitted omitted
  | _ => cases given

/-- If all elements are written, leaving out numbers takes nothing from any list. -/
theorem filterMap_written {γ : Type} {records : List Record} {element? : Part → Option γ}
    (elements : ∀ record ∈ records, record.part.isElement = true → record.omitBlank = false)
    (of_number : ∀ part, part.isElement = false → element? part = none) :
    (written records).filterMap element? = (records.map Record.part).filterMap element? := by
  rw [written, List.filterMap_map, List.filterMap_map, List.filterMap_filter]
  refine List.filterMap_congr fun record listed => ?_
  cases element : record.part.isElement with
  | true =>
      rw [Record.isOmitted_eq_false (elements record listed element)]
      rfl
  | false => simp [of_number record.part element]

/-- If no number is given twice, leaving out a zero does not bring back one before it. -/
theorem latest_written {records : List Record} (field : Nat)
    (once : (records.map Record.part).Pairwise fun earlier later =>
      earlier.number = later.number → earlier.isElement = true) :
    latest field (written records) = latest field (records.map Record.part) := by
  induction records using List.reverseRecOn with
  | nil => rfl
  | append_singleton done record ih =>
      rw [List.map_append, List.map_singleton, List.pairwise_append] at once
      obtain ⟨once_done, -, apart⟩ := once
      have same := ih once_done
      rw [written_append, List.map_append, List.map_singleton, latest_append]
      cases omitted : record.isOmitted with
      | false => rw [if_neg Bool.false_ne_true, latest_append, same]
      | true =>
          rw [if_pos rfl, same]
          cases given : record.part.number? field with
          | none => rfl
          | some value =>
              -- the zero that is left out is the only number of its field
              have none_before : ∀ part ∈ done.map Record.part, part.number? field = none := by
                intro part listed
                by_contra found
                obtain ⟨other, other_given⟩ := Option.ne_none_iff_exists'.mp found
                have numbers := (Part.of_number? other_given).1.trans (Part.of_number? given).1.symm
                have element := apart part listed record.part (List.mem_singleton_self _) numbers
                rw [(Part.of_number? other_given).2] at element
                cases element
              rw [Record.eq_zero_of_isOmitted omitted given, latest,
                List.filterMap_eq_nil_iff.mpr none_before]
              rfl

/-- Of regular records a reader sees every value. -/
theorem mirror_written {records : List Record} (regular : Record.Regular records) :
    mirror (written records) = mirror (records.map Record.part) := by
  rw [mirror, mirror, latest_written 9 regular.once, latest_written 10 regular.once,
    latest_written 14 regular.once]
  congr 1 <;> refine filterMap_written regular.elements fun part => ?_
  all_goals cases part <;> simp [Part.isElement]

/-- Every message that can be written is read back as its reader is to see it, and so is a run of
records: the values that were written, element for element and number for number. -/
theorem parse?_of_written :
    (∀ message : ValueType,
      parse? Pprof.ValueType (Payload.encode message) = some message.received) ∧
    (∀ message : Label, parse? Pprof.Label (Payload.encode message) = some message.received) ∧
    (∀ message : Line, parse? Pprof.Line (Payload.encode message) = some message.received) ∧
    (∀ message : Location,
      parse? Pprof.Location (Payload.encode message) = some message.received) ∧
    (∀ message : Function,
      parse? Pprof.Function (Payload.encode message) = some message.received) ∧
    (∀ message : Sample, Payload.size message < 2 ^ 64 →
      parse? Pprof.Sample (Payload.encode message) = some message.received) ∧
    (∀ records : List Record, (∀ record ∈ records, record.Fits) →
      parse? Pprof.Profile (records.flatMap Record.encode) = some (mirror (written records))) ∧
    (∀ records : List Record, (∀ record ∈ records, record.Fits) → Record.Regular records →
      parse? Pprof.Profile (records.flatMap Record.encode) =
        some (mirror (records.map Record.part))) := by
  refine ⟨message?_valueType, message?_label, message?_line, message?_location,
    message?_function, ?sample, ?records, ?regular⟩
  case sample =>
    intro message bounded
    rw [Payload.Exact.size_eq_length] at bounded
    exact message?_sample message bounded
  case records =>
    intro records fits
    exact message?_of_takes (takes_records fits)
  case regular =>
    intro records fits regular
    rw [← mirror_written regular]
    exact message?_of_takes (takes_records fits)

/-- A stack of no places with a negative value and a label whose value is a number. -/
def smallSample : Sample where
  values := [1, -3]
  labels := [{ key := ⟨1⟩, num := -1 }]

/-- Blank elements among others, a location without a line, and one number that is left out. -/
def smallRecords : List Record :=
  [⟨false, .sampleType {}⟩, ⟨false, .sample smallSample⟩, ⟨false, .sample {}⟩,
    ⟨false, .location { id := 7 }⟩, ⟨false, .sampleType { type := ⟨2⟩, unit := ⟨300⟩ }⟩,
    ⟨false, .function { id := 18446744073709551615, name := ⟨4294967295⟩ }⟩,
    ⟨false, .string ""⟩, ⟨false, .string "objects"⟩, ⟨true, .timeNanos 0⟩,
    ⟨true, .durationNanos (-5)⟩]

theorem parse?_smallRecords :
    Payload.size smallSample < 2 ^ 64 ∧ (∀ record ∈ smallRecords, record.Fits) ∧
      Record.Regular smallRecords ∧
      parse? Pprof.Sample (Payload.encode smallSample) = some smallSample.received ∧
      parse? Pprof.Profile (smallRecords.flatMap Record.encode) =
        some (mirror (written smallRecords)) ∧
      parse? Pprof.Profile (smallRecords.flatMap Record.encode) =
        some {
          sampleTypes := [{}, { type := 2, unit := 300 }]
          samples := [{ values := [1, -3], labels := [{ key := 1, num := -1 }] }, {}]
          locations := [{ id := 7 }]
          functions := [{ id := 18446744073709551615, name := 4294967295 }]
          strings := ["", "objects"]
          durationNanos := -5 } := by
  have bounded : Payload.size smallSample < 2 ^ 64 := by decide
  have fits : ∀ record ∈ smallRecords, record.Fits := by decide +kernel
  have regular : Record.Regular smallRecords := ⟨by decide, by decide⟩
  have read : mirror (smallRecords.map Record.part) = {
      sampleTypes := [{}, { type := 2, unit := 300 }]
      samples := [{ values := [1, -3], labels := [{ key := 1, num := -1 }] }, {}]
      locations := [{ id := 7 }]
      functions := [{ id := 18446744073709551615, name := 4294967295 }]
      strings := ["", "objects"]
      durationNanos := -5 } := by decide +kernel
  obtain ⟨-, -, -, -, -, sample, records, regular_records⟩ := parse?_of_written
  refine ⟨bounded, fits, regular, sample smallSample bounded, records smallRecords fits, ?_⟩
  rw [← read]
  exact regular_records smallRecords fits regular

end Outgoing

end HeapSampler.Pprof
