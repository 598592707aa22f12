import Rtos.Drivers.Framework

/-!
# A device that fails is initialised again instead of the next one

The loop of `device_init_all` has one iteration for each device, and a device
is out of it once its flag is set. Both error paths `continue` without setting
anything, so the next iteration selects the same device, and the devices after
it are attempted only if it succeeds in the end.

`attempted_once_iff`: each device that is not initialised and of a priority
below 255 is attempted exactly once exactly if no attempt of one pass over
them fails, save the last of `device_count` many.
-/
namespace Rtos.Drivers

/-- Each pending device of `r` is attempted exactly once, and is marked if its
driver is there and its `init` is NULL or returns `DEVICE_STATUS_OK`. -/
def AttemptedOnce {F W : Type} (r : Registry F) (run : InitRun F W) : Prop :=
  ∀ i dev, r.devices[i]? = some dev → dev.Pending →
    (run.log.map (·.device)).count i = 1 ∧
    ∀ a ∈ run.log, a.device = i → a.status = .ok →
      ∃ dev', run.registry.devices[i]? = some dev' ∧ dev'.initialized = true

variable {F W : Type} {call : F → DriverInit F W} {r : Registry F} {w : W} {dev : Device} {i : Nat}

/-- A device whose attempt succeeds is marked in the end, whatever happened to
the others. -/
theorem marked_of_ok (hown : OwnEntry call) {a : Attempt} (ha : a ∈ (deviceInitAll call w r).log)
    (hs : a.status = .ok) :
    ∃ dev', (deviceInitAll call w r).registry.devices[a.device]? = some dev' ∧ dev'.initialized = true := by
  refine achieved_of_ok hown (fun _ h => h) (fun w r' i dev _ hi hok => ?_) ha hs
  obtain ⟨dev', e, hmark⟩ := initDevice_own hown w hi
  rw [e]
  exact ⟨dev', List.getElem?_set_self (List.getElem?_eq_some_iff.1 hi).1, hmark hok⟩

/-- The log has a pending device as often as the worklist's has its item. -/
theorem count_device (hown : OwnEntry call) (hkeep : FailuresKeep call) (hi : r.devices[i]? = some dev) :
    ((deviceInitAll call w r).log.map (·.device)).count i =
      LeastFirst.attempts ((worklist hown).run r.devices.length (w, r)).2
        (toLex (dev.initPriority.toNat, i)) := by
  obtain ⟨-, hlog, -⟩ := deviceInitAll_run hown w r
  have hdev := congrArg (List.map Prod.fst) hlog
  rw [List.map_map, List.map_map] at hdev
  rw [show List.map (·.device) (deviceInitAll call w r).log = _ from hdev, LeastFirst.attempts, List.count,
    List.countP_map]
  refine List.countP_congr fun e he => ?_
  -- an item of the log has the priority that its device has in the registry
  obtain ⟨k, ok⟩ := e
  obtain ⟨⟨q, j⟩, rfl⟩ := toLex.surjective k
  have hmem : toLex (q, j) ∈ pending r.devices := LeastFirst.mem_of_run (worklist_stays hown hkeep) he
  obtain ⟨dev', hj, -, rfl⟩ := mem_pending.1 hmem
  show ((j == i) = true ↔ decide (toLex (dev'.initPriority.toNat, j) = toLex (dev.initPriority.toNat, i)) = true)
  rw [beq_iff_eq, decide_eq_true_eq]
  constructor
  · rintro rfl
    rw [hi] at hj
    cases hj
    rfl
  · intro h
    exact (Prod.mk.inj (toLex.injective h)).2

/-- **When one bad device blocks no other**: each device that waits is
attempted exactly once, and marked if it succeeds, if and only if no attempt
of one pass over them fails, save that of the last device of a registry in
which all devices wait. -/
theorem attempted_once_iff {F W : Type} (call : F → DriverInit F W) (hown : OwnEntry call)
    (hkeep : FailuresKeep call) (w : W) (r : Registry F) :
    AttemptedOnce r (deviceInitAll call w r) ↔
      ∀ ok ∈ (onePass call w r).take (r.devices.length - 1), ok = true := by
  have honce := LeastFirst.run_once_iff (M := worklist hown) (s := (w, r)) (worklist_stays hown hkeep)
    (pending_card_le r.devices)
  refine Iff.trans ?_ honce
  constructor
  · intro h k hk
    obtain ⟨⟨q, i⟩, rfl⟩ := toLex.surjective k
    obtain ⟨dev, hi, hp, rfl⟩ := mem_pending.1 hk
    have hcount := (h i dev hi hp).1
    rwa [count_device hown hkeep hi] at hcount
  · intro h i dev hi hp
    refine ⟨?_, ?_⟩
    · rw [count_device hown hkeep hi]
      exact h _ (mem_pending_of hi hp)
    · rintro a ha rfl hs
      exact marked_of_ok hown ha hs

/-- A callback that turns down the device 1. -/
def turnDownOne : Unit → DriverInit Unit Unit := fun _ => onEntry fun w dev =>
  if dev.id = 1 then (w, dev, .error) else (w, { dev with driverData := 64 }, .ok)

theorem turnDownOne_keeps : FailuresKeep turnDownOne := by
  intro f w r i dev hi hfail
  rw [turnDownOne, onEntry_eq _ _ hi] at hfail ⊢
  refine ⟨_, List.getElem?_set_self (List.getElem?_eq_some_iff.1 hi).1, ?_⟩
  by_cases h1 : dev.id = 1
  · simp [h1]
  · simp [h1] at hfail

/-- The device 1 comes before the device 0. -/
def boardCalls : List (RegistryCall Unit) :=
  [.driver (some ⟨some "uart_driver", some ()⟩),
    .device (some ⟨some "uart_0", 0, some "uart_driver", 0, 0, 20, false⟩),
    .device (some ⟨some "uart_1", 1, some "uart_driver", 0, 0, 10, false⟩)]

def boardRegistry : Registry Unit := boardCalls.foldl registryCall deviceFrameworkInit

theorem attempted_once_iff_board : AttemptedOnce boardRegistry (deviceInitAll turnDownOne () boardRegistry) ↔
    ∀ ok ∈ (onePass turnDownOne () boardRegistry).take (boardRegistry.devices.length - 1), ok = true :=
  attempted_once_iff turnDownOne (onEntry_own _) turnDownOne_keeps () boardRegistry

/-- The device 1 fails twice, and the device 0 is never attempted. -/
theorem bad_device_blocks : (registrySys Unit).Run deviceFrameworkInit boardCalls boardRegistry ∧
    OwnEntry turnDownOne ∧ FailuresKeep turnDownOne ∧
    (deviceInitAll turnDownOne () boardRegistry).log = [⟨1, true, .error⟩, ⟨1, true, .error⟩] ∧
    ¬ AttemptedOnce boardRegistry (deviceInitAll turnDownOne () boardRegistry) := by
  have hlog : (deviceInitAll turnDownOne () boardRegistry).log = [⟨1, true, .error⟩, ⟨1, true, .error⟩] := by
    decide +kernel
  refine ⟨registrySys_run _ _, onEntry_own _, turnDownOne_keeps, hlog, fun h => ?_⟩
  have h0 := (h 0 ⟨some "uart_0", 0, some "uart_driver", 0, 0, 20, false⟩ (by decide +kernel) (by decide)).1
  rw [hlog] at h0
  exact absurd h0 (by decide)

end Rtos.Drivers
