import Rtos.Drivers.Framework

/-!
# Devices of priority 255 are never initialised

The scan of `device_init_all` starts at `min_priority` 255 and takes devices
below it, so a device of `init_priority` 255, a value of `uint8_t` like any
other, is never selected. The loop then ends as if all devices were
initialised and reports `DEVICE_STATUS_OK`.

`ok_sound_iff`: if the callbacks write no entry but their own device's, a
success of `device_init_all` means that all devices are initialised exactly if
none of priority 255 waits, or there is no success. A callback that takes the
flag from another device makes a success unsound without any such device
(`foreign_entry_unsound`).
-/
namespace Rtos.Drivers

variable {F W : Type} {call : F → DriverInit F W} {r : Registry F} {w : W} {dev : Device} {i : Nat}

/-- While all attempts succeed, an entry is as it was, or it was pending and is
initialised. -/
def Settled (devices : List Device) (i : Nat) (s : W × Registry F) : Prop :=
  s.2.devices[i]? = devices[i]? ∨
    ∃ dev dev', devices[i]? = some dev ∧ dev.Pending ∧ s.2.devices[i]? = some dev' ∧ dev'.initialized = true

theorem settled_attempt (hown : OwnEntry call) {devices : List Device} {s : W × Registry F} {k : Nat ×ₗ Nat}
    (h : Settled devices i s) (hk : k ∈ (worklist hown).pending s)
    (hok : ((worklist hown).attempt s k).2 = true) : Settled devices i ((worklist hown).attempt s k).1 := by
  obtain ⟨⟨q, j⟩, rfl⟩ := toLex.surjective k
  obtain ⟨dev, hj, hp, -⟩ := mem_pending.1 hk
  by_cases hij : i = j
  · subst hij
    have e : (worklist hown).attempt s (toLex (q, i)) = _ := attemptDevice_eq call q hj
    rw [e] at hok ⊢
    obtain ⟨dev', hset, hmark⟩ := initDevice_own hown s.1 hj
    have hself : (initDevice call s.1 s.2 i dev).registry.devices[i]? = some dev' := by
      rw [hset]
      exact List.getElem?_set_self (List.getElem?_eq_some_iff.1 hj).1
    have hmarked := hmark (of_decide_eq_true hok)
    rcases h with h | ⟨d, d', h1, h2, -, -⟩
    · exact .inr ⟨dev, _, by rw [← h, hj], hp, hself, hmarked⟩
    · exact .inr ⟨d, _, h1, h2, hself, hmarked⟩
  · have hother := attemptDevice_other hown (s := s) hij q
    rw [Settled, show ((worklist hown).attempt s (toLex (q, j))).1.2.devices[i]? = _ from hother]
    exact h

/-- After a success nothing is pending, and the entries that were not have not
changed. -/
theorem settled_of_ok (hown : OwnEntry call) (h : (deviceInitAll call w r).status = .ok) :
    pending (deviceInitAll call w r).registry.devices = ∅ ∧
    ∀ i, Settled r.devices i ((deviceInitAll call w r).world, (deviceInitAll call w r).registry) := by
  obtain ⟨hstate, -, -⟩ := deviceInitAll_run hown w r
  have hok := (LeastFirst.run_ok_iff (M := worklist hown) (s := (w, r)) (pending_card_le r.devices)).2
    ((deviceInitAll_ok_iff hown w r).1 h)
  refine ⟨pending_of_ok hown h, fun i => ?_⟩
  rw [hstate]
  exact LeastFirst.run_keeps (P := (· = true)) (fun s k hs hk hk' => settled_attempt hown hs hk hk') (.inl rfl) hok

/-- A device of priority 255 that waits is left waiting. -/
theorem last_priority_kept (hown : OwnEntry call) (h : (deviceInitAll call w r).status = .ok)
    (hi : r.devices[i]? = some dev) (hlast : dev.initPriority = 255) :
    (deviceInitAll call w r).registry.devices[i]? = some dev := by
  rcases (settled_of_ok hown h).2 i with he | ⟨d, -, hd, hp, -, -⟩
  · exact he.trans hi
  · rw [hi] at hd
    cases hd
    exact absurd hp.2 (by rw [hlast]; decide)

/-- **When a success is sound**: no device of `init_priority` 255 waits for
initialisation, or the call does not succeed, an attempt of one pass over the
other devices failing. -/
theorem ok_sound_iff {F W : Type} (call : F → DriverInit F W) (hown : OwnEntry call) (w : W) (r : Registry F) :
    ((deviceInitAll call w r).status = .ok →
        ∀ dev ∈ (deviceInitAll call w r).registry.devices, dev.initialized = true) ↔
      (∀ dev ∈ r.devices, dev.initialized = false → dev.initPriority ≠ 255) ∨
        ¬ ∀ ok ∈ onePass call w r, ok = true := by
  constructor
  · intro h
    by_cases hok : ∀ ok ∈ onePass call w r, ok = true
    · left
      intro dev hdev hinit hlast
      obtain ⟨i, hi⟩ := List.getElem?_of_mem hdev
      have hs := (deviceInitAll_ok_iff hown w r).2 hok
      have hmarked := h hs dev (List.mem_of_getElem? (last_priority_kept hown hs hi hlast))
      rw [hinit] at hmarked
      cases hmarked
    · exact .inr hok
  · intro h hs dev hdev
    have hall := h.resolve_right (not_not.2 ((deviceInitAll_ok_iff hown w r).1 hs))
    obtain ⟨hempty, hsettled⟩ := settled_of_ok hown hs
    obtain ⟨i, hi⟩ := List.getElem?_of_mem hdev
    by_contra hn
    have hinit := eq_false_of_ne_true hn
    rcases hsettled i with he | ⟨d, d', -, -, hd', hmarked⟩
    · -- it was waiting from the start, with a priority that the scan selects
      have hne := hall dev (List.mem_of_getElem? (he.symm.trans hi)) hinit
      have hlt : dev.initPriority < 255 := by
        have h1 : dev.initPriority.toNat ≠ 255 := fun e => hne (UInt8.toNat_inj.1 e)
        have h2 := dev.initPriority.toNat_lt
        show dev.initPriority.toNat < 255
        omega
      have hmem := mem_pending_of hi ⟨hinit, hlt⟩
      rw [hempty] at hmem
      exact absurd hmem (Finset.notMem_empty _)
    · rw [show (deviceInitAll call w r).registry.devices[i]? = some d' from hd'] at hi
      cases hi
      exact hn hmarked

/-- A callback that keeps a handle. -/
def keepHandle : Unit → DriverInit Unit Unit := fun _ => onEntry fun w dev => (w, { dev with driverData := 64 }, .ok)

/-- Two devices below 255, registered against their priorities. -/
theorem ok_sound_iff_two : ∃ r, (registrySys Unit).Reachable r ∧ r.devices.map (·.initPriority) = [20, 254] ∧
    (deviceInitAll keepHandle () r).status = .ok ∧
    ∀ dev ∈ (deviceInitAll keepHandle () r).registry.devices, dev.initialized = true := by
  refine ⟨_, ⟨_, [.driver (some ⟨some "uart_driver", some ()⟩),
    .device (some ⟨some "uart_0", 0, some "uart_driver", 0, 0, 20, false⟩),
    .device (some ⟨some "uart_1", 1, some "uart_driver", 0, 0, 254, false⟩)], rfl, registrySys_run _ _⟩, ?_, ?_, ?_⟩
  · decide +kernel
  · decide +kernel
  · exact (ok_sound_iff keepHandle (onEntry_own _) () _).2 (.inl (by decide +kernel)) (by decide +kernel)

/-- One device, of priority 255, with a driver that has no `init`. -/
theorem last_priority_skipped : ∃ r, (registrySys Unit).Reachable r ∧ OwnEntry keepHandle ∧
    (deviceInitAll keepHandle () r).status = .ok ∧
    ¬ ∀ dev ∈ (deviceInitAll keepHandle () r).registry.devices, dev.initialized = true := by
  refine ⟨_, ⟨_, [.driver (some ⟨some "uart_driver", none⟩),
    .device (some ⟨some "uart_0", 0, some "uart_driver", 0, 0, 255, false⟩)], rfl, registrySys_run _ _⟩,
    onEntry_own _, ?_, ?_⟩
  · decide +kernel
  · decide +kernel

/-- A callback that has taken the flag from the device `uart_0` when it returns. -/
def takeFlag : Unit → DriverInit Unit Unit := fun _ w r _ =>
  match deviceGetByName r (some "uart_0") with
  | none => (w, r, .ok)
  | some i => (w, r.set i ⟨some "uart_0", 0, some "uart_driver", 0, 0, 10, false⟩, .ok)

/-- The device initialised first is not initialised in the end. -/
theorem foreign_entry_unsound : ∃ r, (registrySys Unit).Reachable r ∧
    (∀ dev ∈ r.devices, dev.initPriority ≠ 255) ∧ (deviceInitAll takeFlag () r).status = .ok ∧
    ¬ ∀ dev ∈ (deviceInitAll takeFlag () r).registry.devices, dev.initialized = true := by
  refine ⟨_, ⟨_, [.driver (some ⟨some "uart_driver", some ()⟩),
    .device (some ⟨some "uart_0", 0, some "uart_driver", 0, 0, 10, false⟩),
    .device (some ⟨some "uart_1", 1, some "uart_driver", 0, 0, 20, false⟩)], rfl, registrySys_run _ _⟩, ?_, ?_, ?_⟩
  · decide +kernel
  · decide +kernel
  · decide +kernel

end Rtos.Drivers
