import Rtos.Drivers.Framework

/-!
# The order of initialisation

What `device_init_all` is documented to do: the devices are initialised in the
order of `init_priority`, those of one priority in the order of registration.
The log of the calls of `init` is in this order, no call is for a device that
is initialised, and none for one after a call for it succeeded
(`init_in_order`). A second `device_init_all` after one that succeeded finds
nothing to do.
-/
namespace Rtos.Drivers

variable {F W : Type} {call : F → DriverInit F W} {r : Registry F} {w : W} {devices : List Device}
  {status : DeviceStatus} {n k iter : Nat} {a : Attempt}

/-- The callbacks set nothing but `driver_data` of their device. -/
def DataOnly (call : F → DriverInit F W) : Prop :=
  ∀ f w r i dev, r.devices[i]? = some dev →
    ∃ driverData, (call f w r i).2.1 = r.set i { dev with driverData := driverData }

/-- The attempts in which a driver's `init` was called. -/
def initCalls (run : InitRun F W) : List Attempt := run.log.filter (·.called)

/-- A device's place in the order of initialisation. -/
def place (devices : List Device) (i : Nat) : Nat ×ₗ Nat :=
  toLex ((devices[i]?).elim 0 (·.initPriority.toNat), i)

theorem DataOnly.ownEntry (h : DataOnly call) : OwnEntry call := by
  intro f w r i dev hi
  obtain ⟨driverData, e⟩ := h f w r i dev hi
  exact ⟨_, e⟩

theorem DataOnly.failuresKeep (h : DataOnly call) : FailuresKeep call := by
  intro f w r i dev hi _
  obtain ⟨driverData, e⟩ := h f w r i dev hi
  rw [e]
  exact ⟨_, List.getElem?_set_self (List.getElem?_eq_some_iff.1 hi).1, rfl, rfl⟩

theorem place_of_pending {i p : Nat} (h : toLex (p, i) ∈ pending devices) : place devices i = toLex (p, i) := by
  obtain ⟨dev, hi, -, rfl⟩ := mem_pending.1 h
  rw [place, hi]
  rfl

/-- The log of the attempts, called or not. -/
theorem log_pairwise (hown : OwnEntry call) (hkeep : FailuresKeep call) (w : W) (r : Registry F) :
    (deviceInitAll call w r).log.Pairwise fun a b =>
      place r.devices a.device ≤ place r.devices b.device ∧ (a.status = .ok → b.device ≠ a.device) := by
  obtain ⟨-, hlog, -⟩ := deviceInitAll_run hown w r
  have hstay := worklist_stays hown hkeep
  have hrun := LeastFirst.run_pairwise (n := r.devices.length) (s := (w, r)) hstay
  -- an item of the worklist's log is the place of its device
  have hplace : ∀ e ∈ ((worklist hown).run r.devices.length (w, r)).2,
      place r.devices (ofLex e.1).2 = e.1 := by
    intro e he
    have hmem : e.1 ∈ pending r.devices := LeastFirst.mem_of_run hstay he
    obtain ⟨⟨p, i⟩, hk⟩ := toLex.surjective e.1
    rw [← hk] at hmem ⊢
    exact place_of_pending hmem
  have hpairs : (((worklist hown).run r.devices.length (w, r)).2.map
      fun e => ((ofLex e.1).2, e.2)).Pairwise fun a b =>
        place r.devices a.1 ≤ place r.devices b.1 ∧ (a.2 = true → b.1 ≠ a.1) := by
    rw [List.pairwise_map]
    refine hrun.imp_of_mem fun {e f} he hf hef => ?_
    dsimp only
    rw [hplace e he, hplace f hf]
    refine ⟨hef.1, fun hok heq => hef.2 hok ?_⟩
    rw [← hplace e he, ← hplace f hf, heq]
  rw [← hlog, List.pairwise_map] at hpairs
  refine hpairs.imp fun {a b} hab => ⟨hab.1, fun hs => hab.2 (decide_eq_true hs)⟩

/-- The device attempted in the iteration `k` is the next one of the registry
after `k` iterations. -/
theorem attempt_next (call : F → DriverInit F W) (h : (initLoop call n iter w r status).log[k]? = some a) :
    ∃ dev, nextDevice (initLoop call k iter w r status).registry.devices = some (a.device, dev) := by
  induction k generalizing n iter w r status with
  | zero =>
    cases n with
    | zero => cases h
    | succ n =>
      rw [initLoop] at h
      split at h
      · cases e : nextDevice r.devices with
        | none =>
          rw [e] at h
          cases h
        | some next =>
          rw [e] at h
          cases h
          exact ⟨next.2, e⟩
      · cases h
  | succ k ih =>
    cases n with
    | zero => cases h
    | succ n =>
      rw [initLoop] at h
      split at h
      · rename_i hiter
        cases e : nextDevice r.devices with
        | none =>
          rw [e] at h
          cases h
        | some next =>
          rw [e] at h
          obtain ⟨dev, e'⟩ := ih h
          refine ⟨dev, ?_⟩
          rw [initLoop, if_pos hiter, e]
          exact e'
      · cases h

/-- With nothing pending there is no attempt. -/
theorem initLoop_nil (call : F → DriverInit F W) (n iter : Nat) (w : W) (h : pending r.devices = ∅) :
    initLoop call n iter w r status = ⟨w, r, status, []⟩ := by
  cases n with
  | zero => rfl
  | succ n =>
    rcases nextDevice_spec r.devices with ⟨e, -⟩ | ⟨i, dev, ks, -, hi, hp, -⟩
    · rw [initLoop, e]
      exact ite_self _
    · have hmem := mem_pending_of hi hp
      rw [h] at hmem
      exact absurd hmem (Finset.notMem_empty _)

/-- **`device_init_all` initialises in order**: its calls of `init` are
non-decreasing in priority and index, each for a device not initialised at
that point, and none follows one that succeeded for the same device. After a
success a second `device_init_all` makes no call and succeeds. -/
theorem init_in_order {F W : Type} (call : F → DriverInit F W) (hdata : DataOnly call) (w : W) (r : Registry F) :
    ((initCalls (deviceInitAll call w r)).Pairwise fun a b =>
      place r.devices a.device ≤ place r.devices b.device) ∧
    (∀ k a, (deviceInitAll call w r).log[k]? = some a → a.called = true →
      ∃ dev, (initLoop call k 0 w r .ok).registry.devices[a.device]? = some dev ∧ dev.initialized = false) ∧
    ((initCalls (deviceInitAll call w r)).Pairwise fun a b => a.status = .ok → b.device ≠ a.device) ∧
    ((deviceInitAll call w r).status = .ok → ∀ w',
      initCalls (deviceInitAll call w' (deviceInitAll call w r).registry) = [] ∧
      (deviceInitAll call w' (deviceInitAll call w r).registry).status = .ok) := by
  have hlog := (log_pairwise hdata.ownEntry hdata.failuresKeep w r).filter (·.called)
  refine ⟨hlog.imp fun h => h.1, fun k a h _ => ?_, hlog.imp fun h => h.2, fun hok w' => ?_⟩
  · obtain ⟨dev, e⟩ := attempt_next call h
    rcases nextDevice_spec (initLoop call k 0 w r .ok).registry.devices with ⟨e', -⟩ | ⟨i, d, ks, e', hi, hp, -⟩
    · rw [e] at e'
      cases e'
    · rw [e] at e'
      cases e'
      exact ⟨dev, hi, hp.1⟩
  · rw [deviceInitAll, initLoop_nil _ _ _ _ (pending_of_ok hdata.ownEntry hok)]
    exact ⟨rfl, rfl⟩

/-- Two devices of one driver, registered against their priorities. -/
theorem init_in_order_board :
    let call : Unit → DriverInit Unit Unit := fun _ => onEntry fun w dev => (w, { dev with driverData := 64 }, .ok)
    let r : Registry Unit := ⟨[⟨some "uart_driver", some ()⟩],
      [⟨some "uart_0", 0, some "uart_driver", 0, 0, 20, false⟩, ⟨some "uart_1", 1, some "uart_driver", 0, 0, 10, false⟩],
      by decide, by decide⟩
    initCalls (deviceInitAll call () r) = [⟨1, true, .ok⟩, ⟨0, true, .ok⟩] ∧
    (initCalls (deviceInitAll call () r)).Pairwise fun a b =>
      place r.devices a.device ≤ place r.devices b.device := by
  refine ⟨by decide +kernel, (init_in_order _ (fun f w r i dev hi => ?_) () _).1⟩
  exact ⟨64, by rw [onEntry_eq _ _ hi]⟩

end Rtos.Drivers
