import PgGrpc.Proofs.CallRuns

/-! A staged schema that was compiled stays what its service is called with, until
a function that is meant to replace or remove it. -/

namespace PgGrpc.Calls
open Library

def Operation.Releases (crates : Crates) (process : Process) (serviceName : String) : Operation → Prop
  | .compile snapshot => snapshot.Same process.staged ∧ ∃ pool,
      Proto.compileProtoFiles crates snapshot = .ok pool ∧ (pool.getServiceByName serviceName).isSome
  | .unregister name => name = serviceName
  | .unregisterAll => True
  | .stage _ _ | .unstage _ | .unstageAll => False

/-- No operation of a step releases the service. -/
def Holds (crates : Crates) (serviceName : String) (tasks : State) (turn : Event) : Prop :=
  ∀ operation, turn = .operate operation → ¬ operation.Releases crates tasks.shared serviceName

/-- The registry holds the entry, and calls to its service have used it only: no call
waits for reflection, and the resolutions since then are to its pool. -/
structure Pinned (serviceName : String) (entry : RegisteredService) (before after : State) : Prop where
  registry : after.shared.registry serviceName = some entry
  resolved : ∃ new, after.shared.resolved = before.shared.resolved ++ new ∧
    ∀ resolution ∈ new, resolution.serviceName = serviceName → resolution.pool = entry.pool
  quiet : ∀ call version channel maxDecode maxEncode next,
    (call, .await (.serverReflectionInfo version channel serviceName maxDecode maxEncode) next) ∉ after.running

variable {crates : Crates} {process : Process} {serviceName : String} {entry : RegisteredService} {before after : State}

theorem Operation.run_registry {operation : Operation} (kept : ¬ operation.Releases crates process serviceName) :
    (operation.run crates process).registry serviceName = process.registry serviceName := by
  cases operation with
  | stage filename source =>
    simp only [run, grpcProtoStage]
    split <;> rfl
  | unstage | unstageAll => rfl
  | compile snapshot =>
    simp only [run, grpcProtoCompile]
    split
    next same =>
      split
      next pool compiled =>
        apply register_other
        intro service member named
        exact kept ⟨same, pool, compiled, DescriptorPool.getServiceByName_isSome.mpr ⟨service, member, named⟩⟩
      next => rfl
    next => rfl
  | unregister name => exact if_neg (Ne.symm kept)
  | unregisterAll => exact absurd trivial kept

private theorem pinned_quiet (reached : (machine crates).Reachable after)
    (registered : after.shared.registry serviceName = some entry) (pinned : entry.pinned = true) :
    ∀ call version channel maxDecode maxEncode next,
      (call, .await (.serverReflectionInfo version channel serviceName maxDecode maxEncode) next) ∉ after.running := by
  intro call version channel maxDecode maxEncode next waits
  have safe := reaches_safe (reached.weaken fun before turn _ => Surroundings.any_kept before turn)
  rw [safe.asks waits entry registered] at pinned
  cases pinned

theorem Pinned.start (reached : (machine crates).Reachable before)
    (registered : before.shared.registry serviceName = some entry) (pinned : entry.pinned = true) :
    Pinned serviceName entry before before :=
  ⟨registered, ⟨[], by simp⟩, pinned_quiet reached registered pinned⟩

theorem Pinned.step {middle : State} {turn : Event} (reached : (machine crates).Reachable middle)
    (pin : Pinned serviceName entry before middle) (pinned : entry.pinned = true)
    (held : Holds crates serviceName middle turn) (taken : (machine crates).step middle turn = some after) :
    Pinned serviceName entry before after := by
  have free := reached.weaken fun before turn _ => Surroundings.any_kept before turn
  obtain ⟨old, grown, pools⟩ := pin.resolved
  rcases step_cases free (Surroundings.any_kept _ _) taken with ⟨operation, same, ran⟩ | ⟨_, keeps⟩
  · have registry : after.shared.registry serviceName = some entry := by
      rw [ran, Operation.run_registry (held operation same)]
      exact pin.registry
    have frame : Operated middle.shared after.shared := ran ▸ operation.run_operated
    exact ⟨registry, ⟨old, by rw [frame.resolved, grown], pools⟩, pinned_quiet (.next reached trivial taken) registry pinned⟩
  · have registry := keeps.pinned serviceName entry pin.registry pinned
    refine ⟨registry, ?_, pinned_quiet (.next reached trivial taken) registry pinned⟩
    obtain ⟨new, further, used⟩ := keeps.resolved
    refine ⟨old ++ new, by rw [further, grown, List.append_assoc], ?_⟩
    intro resolution member same
    rcases List.mem_append.mp member with earlier | now
    · exact pools resolution earlier same
    · exact (used resolution now).pinned entry (same ▸ pin.registry) pinned

/-- A staged entry is kept with its pool and origin, calls resolve against it, and
none of them waits for reflection, in every run that does not release it. -/
theorem pinned_kept (reached : (machine crates).Reachable before)
    (registered : before.shared.registry serviceName = some entry) (pinned : entry.pinned = true) {events : List Event}
    (path : (machine crates).Path (Holds crates serviceName) before events after) :
    Pinned serviceName entry before after := by
  have both : (machine crates).Reachable after ∧ Pinned serviceName entry before after := by
    apply path.preserves fun later => (machine crates).Reachable later ∧ Pinned serviceName entry before later
    · exact fun _ _ _ held taken kept => ⟨.next kept.1 trivial taken, kept.2.step kept.1 pinned held taken⟩
    · exact ⟨reached, .start reached registered pinned⟩
  exact both.2

def echoStage : Operation := .stage "echo.proto" "service Echo"

def echoCompile : Operation := .compile ⟨[("echo.proto", "service Echo")], by decide⟩

def echoCompiled (crates : Crates) : Process := echoCompile.run crates (echoStage.run crates .fresh)

theorem echoCompiled_reachable (crates : Crates) : (machine crates).Reachable { shared := echoCompiled crates } :=
  Machine.reachable_of_run ⟨.fresh, rfl, rfl⟩ (rfl : _ = (machine _).run _ [.operate echoStage, .operate echoCompile])

private def echoCall : List Event :=
  .spawn (plainCall "localhost:50051" "pkg.Echo/Say" true) :: List.replicate 4 (.poll 0 (network fun _ _ => ⟨[], none⟩))

theorem pinned_kept_echo : ∃ after : State, after.ended.length = 1 ∧
    Pinned "pkg.Echo" ⟨⟨[.sample]⟩, .userStaged "echo.proto" "service Echo"⟩
      { shared := echoCompiled .echo } after := by
  have executed : ((machine .echo).run { shared := echoCompiled .echo } echoCall).map
      (fun after => after.ended.length) = some 1 := by decide
  obtain ⟨after, ran, ended⟩ := Option.map_eq_some_iff.mp executed
  have path := Machine.path_of_run (fun turn => ∀ operation, turn ≠ .operate operation) (by simp [echoCall]) ran
  refine ⟨after, ended, pinned_kept (echoCompiled_reachable _) (by decide) rfl (path.weaken ?_)⟩
  exact fun _ _ call operation same => absurd same (call operation)

end PgGrpc.Calls
