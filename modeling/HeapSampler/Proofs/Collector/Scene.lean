import Mathlib
import HeapSampler.Collector.Call
import HeapSampler.Pprof.Resolved
import HeapSampler.Proofs.Config.Overlay
import HeapSampler.Proofs.Wire.Fields

/-!
# What is live

A scene follows the calls on a collector without samples, ids or tables: of each live object it
knows the stack and the tags of its allocation.  What a profile is to say can be read off a scene.
-/

namespace HeapSampler

open Wire (TextFits)

structure LiveObject where
  /-- What the object is called since it was last moved. -/
  identity : Identity
  /-- The call stack of its allocation. -/
  backtrace : Backtrace
  /-- The global tags at its allocation, overlaid with its own. -/
  tags : TagMap

/-- What a profile is to say of an object, if its stack has places and its size can be told. -/
def LiveObject.expected? (host : Host) (object : LiveObject) : Option Pprof.ResolvedSample :=
  match host.symbolize object.backtrace, host.objectSize object.identity with
  | .ok places, some size => some {
      frames := places.map fun place => {
        functionName := if place.functionName = "" then "(unknown)" else place.functionName
        fileName := place.fileName
        line := Int64.ofNat place.line.toNat }
      tags := Pprof.sorted (object.tags.entries.map fun (key, value) => { key, value })
      objects := 1
      sizeBytes := Int64.ofNat (min size.toNat 9223372036854775807) }
  | _, _ => none

structure Scene where
  settings : ValidSettings
  running : Bool := false
  live : List LiveObject := []

namespace Scene

def without (scene : Scene) (identity : Identity) : List LiveObject :=
  scene.live.filter fun object => object.identity ≠ identity

def allocated (scene : Scene) (object : LiveObject) : Scene :=
  let others := scene.without object.identity
  if others.length < scene.settings.settings.maxSamples then
    { scene with live := others ++ [object] }
  else { scene with live := others }

def relocated (scene : Scene) (old new : Identity) : Scene :=
  match scene.live.find? fun object => object.identity = old with
  | none => scene
  | some object =>
      let others := (scene.without old).filter fun object => object.identity ≠ new
      { scene with live := others ++ [{ object with identity := new }] }

def next (scene : Scene) (call : Call) (stack : Backtrace) : Scene :=
  match call with
  | .allocate identity tags draw =>
      if scene.running && scene.settings.rate.admits draw then
        scene.allocated {
          identity
          backtrace := stack
          tags := scene.settings.settings.globalTags.overlaid tags }
      else scene
  | .release identity => { scene with live := scene.without identity }
  | .relocate old new => if old = new then scene else scene.relocated old new
  | .start _ => if scene.running then scene else { scene with running := true, live := [] }
  | .stop | .retire => { scene with running := false }
  | .configure settings =>
      match settings.validate with
      | .ok valid => { scene with settings := valid }
      | .error _ => scene
  | .setGlobalTags tags =>
      if tags.hasEmptyKey then scene
      else { scene with settings := scene.settings.withGlobalTags tags }
  | .flush _ => scene

def after (scene : Scene) (calls : List (Call × Backtrace)) : Scene :=
  calls.foldl (fun scene (call, stack) => scene.next call stack) scene

@[simp]
theorem after_append (scene : Scene) (calls : List (Call × Backtrace)) (call : Call)
    (stack : Backtrace) :
    scene.after (calls ++ [(call, stack)]) = (scene.after calls).next call stack := by
  simp [after]

def expected (scene : Scene) (host : Host) : List Pprof.ResolvedSample :=
  Pprof.sorted (scene.live.filterMap (·.expected? host))

end Scene

/-! ## Sizes of machines -/

/-- Fewer tags than fit an address space, each of which fits it. -/
structure TagsFit (bound : Nat) (tags : List (String × String)) : Prop where
  length_lt : tags.length < bound
  texts : ∀ tag ∈ tags, TextFits tag.1 ∧ TextFits tag.2

/-- The answers of a host fit the machine that it runs on. -/
structure Host.Fits (host : Host) : Prop where
  length_lt : ∀ {backtrace : Backtrace} {places : List NamedPlace},
    host.symbolize backtrace = .ok places → places.length < 2 ^ 58
  texts : ∀ {backtrace : Backtrace} {places : List NamedPlace},
    host.symbolize backtrace = .ok places →
      ∀ place ∈ places, TextFits place.functionName ∧ TextFits place.fileName

def Call.Fits : Call → Prop
  | .allocate _ tags _ => TagsFit (2 ^ 58) tags
  | .configure settings => TagsFit (2 ^ 58) settings.globalTags.entries
  | .setGlobalTags tags => TagsFit (2 ^ 58) tags.entries
  | .release _ | .relocate _ _ | .start _ | .stop | .flush _ | .retire => True

theorem settings_of_validate {settings : Settings} {valid : ValidSettings}
    (checked : settings.validate = .ok valid) : valid.settings = settings := by
  unfold Settings.validate at checked
  split at checked
  · cases checked
  · split_ifs at checked
    cases checked
    rfl

namespace Scene

variable {scene : Scene}

structure Fits (scene : Scene) : Prop where
  globalTags : TagsFit (2 ^ 58) scene.settings.settings.globalTags.entries
  live : ∀ object ∈ scene.live, TagsFit (2 ^ 59) object.tags.entries

theorem fits_overlaid {map : TagMap} {others : List (String × String)}
    (map_fits : TagsFit (2 ^ 58) map.entries) (others_fit : TagsFit (2 ^ 58) others) :
    TagsFit (2 ^ 59) (map.overlaid others).entries where
  length_lt := by
    have shorter := length_overlaid_le map others
    have few := map_fits.length_lt
    have few' := others_fit.length_lt
    omega
  texts tag member := (mem_overlaid member).elim (map_fits.texts tag) (others_fit.texts tag)

theorem Fits.allocated (fits : scene.Fits) {object : LiveObject}
    (object_fits : TagsFit (2 ^ 59) object.tags.entries) : (scene.allocated object).Fits := by
  simp only [Scene.allocated]
  split
  · refine ⟨fits.globalTags, fun other member => ?_⟩
    rcases List.mem_append.mp member with kept | new
    · exact fits.live other (List.mem_of_mem_filter kept)
    · cases List.mem_singleton.mp new
      exact object_fits
  · exact ⟨fits.globalTags, fun other kept => fits.live other (List.mem_of_mem_filter kept)⟩

theorem Fits.relocated (fits : scene.Fits) (old new : Identity) :
    (scene.relocated old new).Fits := by
  simp only [Scene.relocated]
  split
  · exact fits
  · rename_i object found
    refine ⟨fits.globalTags, fun other member => ?_⟩
    rcases List.mem_append.mp member with kept | moved
    · exact fits.live other (List.mem_of_mem_filter (List.mem_of_mem_filter kept))
    · cases List.mem_singleton.mp moved
      exact fits.live object (List.mem_of_find?_eq_some found)

theorem Fits.next (fits : scene.Fits) {call : Call} (call_fits : call.Fits) (stack : Backtrace) :
    (scene.next call stack).Fits := by
  cases call with
  | allocate identity tags draw =>
      simp only [Scene.next]
      split
      · exact fits.allocated (fits_overlaid fits.globalTags call_fits)
      · exact fits
  | release identity =>
      exact ⟨fits.globalTags, fun other kept => fits.live other (List.mem_of_mem_filter kept)⟩
  | relocate old new =>
      simp only [Scene.next]
      split
      · exact fits
      · exact fits.relocated old new
  | start instant =>
      simp only [Scene.next]
      split
      · exact fits
      · exact ⟨fits.globalTags, fun _ member => nomatch member⟩
  | stop => exact ⟨fits.globalTags, fits.live⟩
  | configure settings =>
      simp only [Scene.next]
      split
      · rename_i valid checked
        refine ⟨?_, fits.live⟩
        change TagsFit _ valid.settings.globalTags.entries
        rw [settings_of_validate checked]
        exact call_fits
      · exact fits
  | setGlobalTags tags =>
      simp only [Scene.next]
      split
      · exact fits
      · exact ⟨call_fits, fits.live⟩
  | flush clock => exact fits
  | retire => exact ⟨fits.globalTags, fits.live⟩

end Scene

end HeapSampler
