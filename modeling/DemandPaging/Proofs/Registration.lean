/-
  The registry of devices: every device is handed out at most once, and the first of a kind first.

  Numbers come from a counter of their own, while a device that is taken leaves a gap in the middle
  of the list.  What is left is still a part of what was registered, in that order, and so in the
  order of the numbers; the first device of a kind is the one with the lowest number.

  * `RegistryHistory.registered`, `taken` and `waiting` are the devices that were registered, that
    were taken and that were not, told from what was asked and answered;
  * `Registry.take?_cases` says which device is taken, and from where;
  * `Registry.Follows`: the registry holds a part of what was registered, and with what was taken it
    is all of it; `Follows.register` and `Follows.take` say that requests keep this;
  * `Registry.registry_handsOut`: what registries answer and hold, whatever is asked of them.
-/
import Mathlib.Data.List.Nodup
import DemandPaging.Block.Registry
import DemandPaging.Proofs.History

namespace DemandPaging

/-! ## Requests to a registry -/

/-- What is asked of a registry. -/
inductive RegistryRequest where
  /-- Add a device. -/
  | register (name : String) (kind : DeviceKind) (size : Nat) (drive : Drive)
  /-- Claim the first device of a kind. -/
  | take (kind : DeviceKind)

/-- What a registry answers. -/
inductive RegistryAnswer where
  /-- The number of the device. -/
  | registered (index : Nat)
  /-- The device claimed, if there was one. -/
  | taken (device : Option Device)

/-- The requests made of a registry, in order, each with its answer. -/
abbrev RegistryHistory : Type := List (RegistryRequest × RegistryAnswer)

namespace RegistryHistory

variable {history : RegistryHistory} {name : String} {kind : DeviceKind} {size : Nat}
  {drive : Drive} {answer : RegistryAnswer} {device : Device} {index : Nat}

/-- The device that a request adds, not numbered yet. -/
def added? : RegistryRequest × RegistryAnswer → Option Device
  | (.register name kind size drive, _) => some { name, kind, size, drive }
  | (.take _, _) => none

/-- The device that an answer hands out. -/
def handedOut? : RegistryRequest × RegistryAnswer → Option Device
  | (_, .taken device) => device
  | (_, .registered _) => none

/-- The devices that were registered, numbered in order. -/
def registered (history : RegistryHistory) : List Device :=
  (history.filterMap added?).mapIdx fun index device => { device with index }

/-- The devices that were taken. -/
def taken (history : RegistryHistory) : List Device :=
  history.filterMap handedOut?

/-- The devices that were registered and not taken. -/
def waiting (history : RegistryHistory) : List Device :=
  (registered history).filter fun device => device.index ∉ (taken history).map Device.index

theorem registered_register :
    registered (history ++ [(.register name kind size drive, answer)]) =
      registered history ++ [{ index := (registered history).length, name, kind, size, drive }] := by
  simp [registered, added?, List.mapIdx_concat]

theorem registered_take : registered (history ++ [(.take kind, answer)]) = registered history := by
  rw [registered, List.filterMap_append, List.filterMap_cons_none rfl, List.filterMap_nil,
    List.append_nil, registered]

theorem index_registered (history : RegistryHistory) :
    (registered history).map Device.index = List.range (registered history).length := by
  refine List.ext_getElem (by simp) fun i hi _ => ?_
  simp [registered]

/-- The number of a device is its place among the devices that were registered. -/
theorem index_of_registered {i : Nat} (h : (registered history)[i]? = some device) :
    device.index = i := by
  obtain ⟨hi, rfl⟩ := List.getElem?_eq_some_iff.1 h
  simp [registered]

/-- Nothing was transferred when a device was registered. -/
theorem reads_of_mem_registered (h : device ∈ registered history) :
    device.reads = 0 ∧ device.writes = 0 := by
  obtain ⟨i, hi, rfl⟩ := List.mem_mapIdx.1 h
  obtain ⟨⟨request, answer⟩, -, hadded⟩ := List.mem_filterMap.1 (List.getElem_mem hi)
  cases request with
  | register name kind size drive =>
    simp only [added?, Option.some.injEq] at hadded
    rw [← hadded]
    exact ⟨rfl, rfl⟩
  | take kind => cases hadded

theorem taken_register :
    taken (history ++ [(.register name kind size drive, .registered index)]) = taken history := by
  rw [taken, List.filterMap_append, List.filterMap_cons_none rfl, List.filterMap_nil,
    List.append_nil, taken]

theorem taken_take {found : Option Device} :
    taken (history ++ [(.take kind, .taken found)]) = taken history ++ found.toList := by
  rw [taken, List.filterMap_append, ← taken]
  cases found <;> rfl

theorem nodup_index {devices : List Device}
    (hperm : (devices ++ taken history).Perm (registered history)) :
    ((devices ++ taken history).map Device.index).Nodup := by
  rw [(hperm.map Device.index).nodup_iff, index_registered]
  exact List.nodup_range

/-- If a part of the devices that were registered, in their order, is all that was not taken, it is
    the devices that wait. -/
theorem eq_waiting {devices : List Device} (hsublist : devices.Sublist (registered history))
    (hperm : (devices ++ taken history).Perm (registered history)) :
    devices = waiting history := by
  have hnodup := nodup_index hperm
  rw [List.map_append, List.nodup_append'] at hnodup
  obtain ⟨-, -, hdisjoint⟩ := hnodup
  have hkept : devices.filter (fun device => device.index ∉ (taken history).map Device.index) =
      devices :=
    List.filter_eq_self.2 fun device hdevice =>
      decide_eq_true (hdisjoint (List.mem_map_of_mem hdevice))
  have hgone : (taken history).filter
      (fun device => device.index ∉ (taken history).map Device.index) = [] :=
    List.filter_eq_nil_iff.2 fun device hdevice => by
      simpa using ⟨device, hdevice, rfl⟩
  -- What waits has the devices as a part, and it has as many.
  refine List.Sublist.eq_of_length ?_ ?_
  · rw [waiting, ← hkept]
    exact hsublist.filter _
  · rw [waiting, ← (hperm.filter _).length_eq, List.filter_append, hkept, hgone, List.append_nil]

end RegistryHistory

namespace Registry

variable {registry registry' : Registry} {kind : DeviceKind} {device : Device}

/-! ## One request -/

/-- Carry out a request. -/
def perform (registry : Registry) : RegistryRequest → Outcome (RegistryAnswer × Registry)
  | .register name kind size drive => do
    let (index, registry) ← registry.register { name, kind, size, drive }
    return (.registered index, registry)
  | .take kind =>
    match registry.take? kind with
    | some (device, registry) => return (.taken (some device), registry)
    | none => return (.taken none, registry)

theorem take?_eq_none_iff :
    registry.take? kind = none ↔ ∀ device ∈ registry.devices, device.kind ≠ kind := by
  unfold take?
  cases h : registry.devices.find? fun device => device.kind = kind with
  | none => simpa using h
  | some device =>
    refine iff_of_false nofun fun hnone => ?_
    exact hnone device (List.mem_of_find?_eq_some h) (by simpa using List.find?_some h)

/-- The device that is taken is the first of its kind, and all others stay in their order. -/
theorem take?_cases (h : registry.take? kind = some (device, registry')) :
    ∃ before behind, registry.devices = before ++ device :: behind ∧ device.kind = kind ∧
      (∀ other ∈ before, other.kind ≠ kind) ∧
        registry' = { registry with devices := before ++ behind } := by
  unfold take? at h
  split at h
  · cases h
  · rename_i found hfind
    cases h
    obtain ⟨hkind, before, behind, hsplit, hbefore⟩ := List.find?_eq_some_iff_append.1 hfind
    refine ⟨before, behind, hsplit, by simpa using hkind, by simpa using hbefore, ?_⟩
    rw [hsplit, List.eraseP_append_right _ (by simpa using hbefore), List.eraseP_cons, hkind, cond_true]

theorem perform_completes (registry : Registry) (request : RegistryRequest) :
    (registry.perform request).Completes := by
  cases request with
  | register name kind size drive => exact ⟨_, rfl⟩
  | take kind =>
    rw [perform]
    split <;> exact ⟨_, rfl⟩

/-! ## Any requests -/

open RegistryHistory

/-- The first device of a kind, if there is one. -/
def FirstOf (devices : List Device) (kind : DeviceKind) : Option Device → Prop
  | none => ∀ device ∈ devices, device.kind ≠ kind
  | some device => device ∈ devices ∧ device.kind = kind ∧
      ∀ other ∈ devices, other.kind = kind → device.index ≤ other.index

/-- The answers that fit what happened before: a device gets the number of devices registered so
    far, and a claim the first device of the kind that waits. -/
def Fits (history : RegistryHistory) : RegistryRequest → RegistryAnswer → Prop
  | .register _ _ _ _, answer => answer = .registered (registered history).length
  | .take kind, answer => ∃ found, answer = .taken found ∧ FirstOf (waiting history) kind found

/-- A registry holds a part of what was registered, in order, and with what was taken that is all
    of it. -/
structure Follows (registry : Registry) (history : RegistryHistory) : Prop where
  nextIndex_eq : registry.nextIndex = (registered history).length
  sublist : registry.devices.Sublist (registered history)
  perm : (registry.devices ++ taken history).Perm (registered history)

namespace Follows

variable {history : RegistryHistory}

theorem devices_eq (h : registry.Follows history) : registry.devices = waiting history :=
  eq_waiting h.sublist h.perm

theorem sorted (h : registry.Follows history) :
    registry.devices.Pairwise fun a b => a.index < b.index := by
  refine List.Pairwise.sublist h.sublist (List.pairwise_map.1 ?_)
  rw [index_registered]
  exact List.pairwise_lt_range

theorem register {name : String} {size : Nat} {drive : Drive} (h : registry.Follows history) :
    Follows {
      devices := registry.devices ++ [{ index := registry.nextIndex, name, kind, size, drive }]
      nextIndex := registry.nextIndex + 1 }
      (history ++ [(.register name kind size drive, .registered registry.nextIndex)]) where
  nextIndex_eq := by rw [registered_register, List.length_append, h.nextIndex_eq]; rfl
  sublist := by
    rw [registered_register, h.nextIndex_eq]
    exact h.sublist.append (List.Sublist.refl _)
  perm := by
    rw [registered_register, taken_register, h.nextIndex_eq, List.append_assoc]
    refine (List.perm_append_comm.append_left _).trans ?_
    rw [← List.append_assoc]
    exact h.perm.append_right _

theorem take (h : registry.Follows history)
    (htake : registry.take? kind = some (device, registry')) :
    registry'.Follows (history ++ [(.take kind, .taken (some device))]) := by
  obtain ⟨before, behind, hdevices, -, -, rfl⟩ := take?_cases htake
  refine ⟨?_, ?_, ?_⟩
  · rw [registered_take, h.nextIndex_eq]
  · rw [registered_take]
    refine List.Sublist.trans ?_ h.sublist
    rw [hdevices]
    exact (List.sublist_cons_self _ _).append_left _
  · rw [registered_take, taken_take]
    refine List.Perm.trans ?_ h.perm
    -- The device moves from the middle of those left to the end of those taken.
    rw [hdevices, List.append_assoc, List.append_assoc, List.cons_append, ← List.append_assoc behind]
    have hcomm : (behind ++ taken history ++ [device]).Perm
        ([device] ++ (behind ++ taken history)) := List.perm_append_comm
    exact hcomm.append_left before

theorem take_none (h : registry.Follows history) :
    registry.Follows (history ++ [(.take kind, .taken none)]) := by
  obtain ⟨hnext, hsublist, hperm⟩ := h
  refine ⟨?_, ?_, ?_⟩
  · rwa [registered_take]
  · rwa [registered_take]
  · rwa [registered_take, taken_take, Option.toList_none, List.append_nil]

theorem firstOf (h : registry.Follows history) (kind : DeviceKind) :
    FirstOf registry.devices kind ((registry.take? kind).map Prod.fst) := by
  cases htake : registry.take? kind with
  | none => exact take?_eq_none_iff.1 htake
  | some result =>
    obtain ⟨device, registry'⟩ := result
    obtain ⟨before, behind, hdevices, hkind, hbefore, -⟩ := take?_cases htake
    have hsorted := h.sorted
    rw [hdevices, List.pairwise_append, List.pairwise_cons] at hsorted
    refine ⟨by simp [hdevices], hkind, fun other hother hsame => ?_⟩
    rw [hdevices, List.mem_append, List.mem_cons] at hother
    obtain hother | rfl | hother := hother
    · exact absurd hsame (hbefore other hother)
    · exact Nat.le_refl _
    · exact Nat.le_of_lt (hsorted.2.1.1 other hother)

/-- A request keeps what a registry follows, and its answer fits. -/
theorem perform {request : RegistryRequest} {answer : RegistryAnswer} (h : registry.Follows history)
    (hrequest : (registry.perform request).result = .ok (answer, registry')) :
    registry'.Follows (history ++ [(request, answer)]) ∧ Fits history request answer := by
  cases request with
  | register name kind size drive =>
    cases hrequest
    exact ⟨h.register, congrArg _ h.nextIndex_eq⟩
  | take kind =>
    have hfirst := h.firstOf kind
    rw [h.devices_eq] at hfirst
    rw [Registry.perform] at hrequest
    cases htake : registry.take? kind with
    | none =>
      rw [htake] at hfirst hrequest
      cases hrequest
      exact ⟨h.take_none, none, rfl, hfirst⟩
    | some result =>
      rw [htake] at hfirst hrequest
      cases hrequest
      exact ⟨h.take htake, _, rfl, hfirst⟩

end Follows

/-- What a registry answered and holds, told from a history: devices are numbered in order; what was
    registered and not taken waits, in order; and a claim takes the first of its kind that waits, as
    it was registered. -/
structure HandsOut (history : RegistryHistory) (registry : Registry) : Prop where
  /-- Every request got the answer that fits the ones before. -/
  fits : ∀ (i : Nat) request answer, history[i]? = some (request, answer) →
    Fits (history.take i) request answer
  /-- The devices have the numbers that were answered. -/
  numbered : ∀ (i : Nat) device, (registered history)[i]? = some device → device.index = i
  /-- Nothing was transferred by a device that was registered. -/
  unused : ∀ device ∈ registered history, device.reads = 0 ∧ device.writes = 0
  /-- The registry holds the devices that wait. -/
  devices_eq : registry.devices = waiting history
  /-- Every device that was registered waits or was taken. -/
  perm : (waiting history ++ taken history).Perm (registered history)
  /-- No device waits or was taken twice, and none does both. -/
  nodup : ((waiting history ++ taken history).map Device.index).Nodup
  /-- The devices that wait are those registered less those taken. -/
  size_eq : registry.size + (taken history).length = (registered history).length

/-- Whatever is asked of a registry, it is answered: devices get numbers that are never used again,
    each is handed out at most once, and a claim gets the first device of the kind that is left. -/
theorem registry_handsOut (requests : List RegistryRequest) :
    ∃ history registry, history.map Prod.fst = requests ∧
      Outcome.Runs Registry.perform {} history registry ∧ HandsOut history registry := by
  obtain ⟨history, registry, hrequests, hruns⟩ :=
    Outcome.exists_runs_of_completes perform_completes {} requests
  obtain ⟨hfollows, hfits⟩ := hruns.facts (P := fun before s => Follows s before)
    (Q := Fits) (fun _ _ _ _ _ hbefore hrequest => hbefore.perform hrequest)
    ⟨rfl, List.nil_sublist _, .nil⟩
  refine ⟨history, registry, hrequests, hruns, ?_⟩
  have hperm : (waiting history ++ taken history).Perm (registered history) :=
    hfollows.devices_eq ▸ hfollows.perm
  exact {
    fits := hfits
    numbered := fun i device h => index_of_registered h
    unused := fun _ => reads_of_mem_registered
    devices_eq := hfollows.devices_eq
    perm := hperm
    nodup := nodup_index hperm
    size_eq := by
      rw [size, ← List.length_append, hfollows.perm.length_eq] }

/-- A device that is taken leaves its number behind, and the next of its kind stays where it is. -/
example (drive : Drive) :
    ((Outcome.answerAll Registry.perform {} [.register "hda" .swap 8 drive,
      .register "hdb" .foreign 4 drive, .register "hdc" .swap 6 drive, .take .swap,
      .register "hdd" .swap 2 drive]).result.map fun (_, registry) =>
        registry.devices.map Device.index) = .ok [1, 2, 3] := rfl

end Registry

end DemandPaging
