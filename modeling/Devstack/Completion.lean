import Devstack.Resources
import Devstack.Daemon.World

/-! # Completion — when `down` and `kill` come to their end

    `down` and `kill` of `src/app/commands/runs.rs`, from their first step to their
    answer, with the port registry.  They stop the units, give back the ports of
    every service, and only then mark the run stopped: a release that is refused
    ends the command in between.

    `release_port` refuses a port that another owner holds.  The records of a run
    keep their port numbers when the run stops, so a run that is stopped again may
    name ports that are no longer its own. -/

namespace DevstackCompletion

open DevstackModel DevstackStores DevstackReservation DevstackPorts DevstackResources
open DevstackLocked DevstackWorld DevstackLaunch

/-- The daemon's stores and the port registry. -/
structure State where
  world : World
  ports : Ports

/-- What the outside answers to `down` and `kill`. -/
structure Answers where
  host : Host
  now : String
  written : Except String Unit

/-- The services of a run with the port and the listen port of their records. -/
def listServices (run : RunRecord) : List (String × Option Port × Option Port) :=
  run.services.toList.map (fun kv => (kv.1, kv.2.launch.port, kv.2.launch.listenPort))

/-- The loop over the units; the manager's answers are ignored. -/
def stopUnits (kill : Bool) (runId : String) (services : List (String × Option Port × Option Port))
    (w : World) : World :=
  services.foldl (fun w service =>
    let unitName := unitNameForRun runId service.1
    let killed := if kill then w.unit .kill (.service runId service.1) unitName else w
    killed.unit .stop (.service runId service.1) unitName) w

/-- The loop over the ports. -/
def releaseServices (host : Host) (runId : String) :
    List (String × Option Port × Option Port) → Ports → Except String Unit × Ports
  | [], s => (.ok (), s)
  | (service, port, listenPort) :: rest, s =>
      match releaseServiceCaptureBackendPort host runId service listenPort port s with
      | (.error err, s) => (.error err, s)
      | (.ok _, s) =>
          match releaseServicePort host runId service port s with
          | (.error err, s) => (.error err, s)
          | (.ok _, s) => releaseServices host runId rest s

/-- `persist_manifest`. -/
def persistManifest (written : Except String Unit) (runId : String) (w : World) :
    Except String Unit × World :=
  match w.runs[runId]? with
  | none => (.error s!"run {runId} not found", w)
  | some run =>
      match written with
      | .error err => (.error err, w)
      | .ok _ => (.ok (), { w with manifests := w.manifests.insert run.runId (persistedRun run) })

/-- `down` (with `kill` false) and `kill`; the answer is the run as it is reported. -/
def stopRun (answers : Answers) (kill purge : Bool) (runId : String) (s : State) :
    Except String RunRecord × State :=
  let w := s.world.lock runId .stopHandles
  match w.runs[runId]? with
  | none => (.error s!"run {runId} not found", ⟨w, s.ports⟩)
  | some run =>
      let services := listServices run
      let w := stopUnits kill runId services w
      match releaseServices answers.host runId services s.ports with
      | (.error err, ports) => (.error err, ⟨w, ports⟩)
      | (.ok _, ports) =>
          match persistManifest answers.written runId (w.lock runId (.stopAll answers.now)) with
          | (.error err, w) => (.error err, ⟨w, ports⟩)
          | (.ok _, w) =>
              match w.runs[runId]? with
              | none => (.error s!"run {runId} not found", ⟨w, ports⟩)
              | some run =>
                  let w :=
                    if purge then
                      { w with runs := w.runs.erase runId, manifests := w.manifests.erase runId }
                    else w
                  (.ok run, ⟨w, ports⟩)

/-! ## The releases of a run -/

/-- The releases the loop makes for one service. -/
def serviceReleases (runId : String) (service : String × Option Port × Option Port) :
    List (Port × Owner) :=
  (match service.2.2 with
    | some listenPort =>
        if some listenPort ≠ service.2.1 then [(listenPort, .captureBackend runId service.1)]
        else []
    | none => [])
  ++ service.2.1.toList.map (fun port => (port, .service runId service.1))

/-- The ports a run's records name, with the owners that release them, in order. -/
def recordedPorts (runId : String) (run : RunRecord) : List (Port × Owner) :=
  (listServices run).flatMap (serviceReleases runId)

section Releases

variable {host : Host}

/-- `release_port` succeeds unless another owner holds the port. -/
theorem releasePort_ok (s : Ports) (port : Port) (owner : Owner) :
    (releasePort host port owner s).1 = .ok ()
      ↔ allReleased (holding host s.registry) [(port, owner)] = true := by
  refine withRegistry_spec s _
    (fun V result _ => result = .ok () ↔ allReleased V [(port, owner)] = true) ?_ ?_
  · intro s' hclean err herr
    simp only [allReleased, holding_clean hclean]
    cases hget : s'.registry[port]? with
    | none => simp [hget] at herr
    | some entry =>
        by_cases ho : entry.owner = owner
        · simp [hget, ho] at herr
        · simp [ho]
  · intro s' hclean output hok
    simp only [allReleased, holding_clean hclean]
    cases hget : s'.registry[port]? with
    | none => simp
    | some entry =>
        by_cases ho : entry.owner = owner
        · simp [ho]
        · simp [hget, ho] at hok

/-- A list of releases was made: it succeeded exactly when all of them could be
    made, and then it released them. -/
def Released (host : Host) (xs : List (Port × Owner)) (s : Ports)
    (outcome : Except String Unit × Ports) : Prop :=
  (outcome.1 = .ok () ↔ allReleased (holding host s.registry) xs = true)
    ∧ (outcome.1 = .ok () →
      holding host outcome.2.registry = releaseAll (holding host s.registry) xs)

theorem released_nil (s : Ports) : Released host [] s (.ok (), s) :=
  ⟨⟨fun _ => rfl, fun _ => rfl⟩, fun _ => rfl⟩

theorem released_one (s : Ports) (port : Port) (owner : Owner) :
    Released host [(port, owner)] s (releasePort host port owner s) :=
  ⟨releasePort_ok s port owner, fun _ => releasePort_spec s port owner⟩

/-- Releases made one list after the other. -/
theorem Released.seq {xs ys : List (Port × Owner)} {s s' : Ports} {u : Unit}
    {outcome : Except String Unit × Ports} (hfirst : Released host xs s (.ok u, s'))
    (hrest : Released host ys s' outcome) : Released host (xs ++ ys) s outcome := by
  obtain ⟨hok, hafter⟩ := hfirst
  obtain ⟨hok', hafter'⟩ := hrest
  rw [hafter rfl] at hok' hafter'
  rw [Released, allReleased_append, hok.mp rfl, Bool.true_and, releaseAll_append]
  exact ⟨hok', hafter'⟩

/-- A refused release refuses what follows. -/
theorem Released.refused {xs ys : List (Port × Owner)} {s s' : Ports} {err : String}
    (hfirst : Released host xs s (.error err, s')) :
    Released host (xs ++ ys) s (.error err, s') := by
  refine ⟨⟨fun h => (nomatch h), fun h => ?_⟩, fun h => (nomatch h)⟩
  rw [allReleased_append, Bool.and_eq_true] at h
  exact nomatch hfirst.1.mpr h.1

theorem released_service (runId service : String) (port listenPort : Option Port) (s : Ports) :
    Released host (serviceReleases runId (service, port, listenPort)) s
      (match releaseServiceCaptureBackendPort host runId service listenPort port s with
        | (.error err, s) => (.error err, s)
        | (.ok _, s) => releaseServicePort host runId service port s) := by
  have hbackend : Released host
      (match listenPort with
        | some listenPort =>
            if some listenPort ≠ port then [(listenPort, .captureBackend runId service)] else []
        | none => []) s
      (releaseServiceCaptureBackendPort host runId service listenPort port s) := by
    cases listenPort with
    | none => exact released_nil s
    | some listenPort =>
        simp only [releaseServiceCaptureBackendPort]
        by_cases hne : some listenPort ≠ port
        · simp only [if_pos hne]
          exact released_one s listenPort _
        · simp only [if_neg hne]
          exact released_nil s
  have hport : ∀ s : Ports, Released host (port.toList.map (fun port => (port, .service runId service)))
      s (releaseServicePort host runId service port s) := by
    intro s
    cases port with
    | none => exact released_nil s
    | some port => exact released_one s port _
  cases hres : releaseServiceCaptureBackendPort host runId service listenPort port s with
  | mk result s' =>
      rw [hres] at hbackend
      cases result with
      | error err => exact hbackend.refused
      | ok u => exact hbackend.seq (hport s')

/-- **THE LOOP OVER THE PORTS** releases what the records name, or is refused. -/
theorem released_services (runId : String) (services : List (String × Option Port × Option Port))
    (s : Ports) :
    Released host (services.flatMap (serviceReleases runId)) s
      (releaseServices host runId services s) := by
  induction services generalizing s with
  | nil => exact released_nil s
  | cons service services ih =>
      obtain ⟨service, port, listenPort⟩ := service
      have hone := @released_service host runId service port listenPort s
      rw [List.flatMap_cons, releaseServices]
      cases hbackend : releaseServiceCaptureBackendPort host runId service listenPort port s with
      | mk result s' =>
          rw [hbackend] at hone
          cases result with
          | error err => exact hone.refused
          | ok u =>
              simp only at hone ⊢
              cases hport : releaseServicePort host runId service port s' with
              | mk result s'' =>
                  rw [hport] at hone
                  cases result with
                  | error err => exact hone.refused
                  | ok u' => exact hone.seq (ih s'')

end Releases

/-! ## The whole command -/

/-- An owner of the run `runId`. -/
def OwnerOf (runId : String) : Owner → Prop
  | .service run _ | .captureBackend run _ => run = runId
  | _ => False

/-- A stop of the run came to its end: it answered, the run is stopped (and still
    there unless it was purged), none of the ports its records name is reserved by
    it, and the reservations of all others are what they were. -/
structure Completed (host : Host) (purge : Bool) (runId : String) (run : RunRecord) (s : State)
    (outcome : Except String RunRecord × State) : Prop where
  answered : ∃ reported, outcome.1 = .ok reported ∧ reported.state = .stopped
  stopped : if purge then outcome.2.world.runs[runId]? = none
    else ∃ stopped, outcome.2.world.runs[runId]? = some stopped ∧ stopped.state = .stopped
  released : ∀ x ∈ recordedPorts runId run, ∀ o, OwnerOf runId o →
    holding host outcome.2.ports.registry x.1 ≠ some o
  others : ∀ (port : Port) (o : Owner), ¬ OwnerOf runId o →
    (holding host outcome.2.ports.registry port = some o
      ↔ holding host s.ports.registry port = some o)

/-- Every port that the run's records name is unreserved, reserved by the owner that
    releases it, or by another owner of the run that releases it before. -/
def Releasable (host : Host) (runId : String) (run : RunRecord) (s : State) : Prop :=
  ∀ before x after, recordedPorts runId run = before ++ x :: after →
    ∀ o, holding host s.ports.registry x.1 = some o → o = x.2 ∨ (x.1, o) ∈ before

section Stop

variable {answers : Answers} {kill purge : Bool} {runId : String} {s : State} {run : RunRecord}

/-- What is released belongs to the run. -/
theorem ownerOf_recorded {x : Port × Owner} (hx : x ∈ recordedPorts runId run) :
    OwnerOf runId x.2 := by
  obtain ⟨⟨service, port, listenPort⟩, -, hx⟩ := List.mem_flatMap.mp hx
  rw [serviceReleases] at hx
  rcases List.mem_append.mp hx with hx | hx
  · split at hx
    · split at hx
      · rw [List.mem_singleton.mp hx]
        rfl
      · exact nomatch hx
    · exact nomatch hx
  · obtain ⟨port, -, rfl⟩ := List.mem_map.mp hx
    rfl

theorem lock_get {w : World} {op : RunOp} (hrun : w.runs[runId]? = some run) :
    (w.lock runId op).runs[runId]? = some (op.apply run).1 := by
  rw [World.lock, hrun]
  simp

theorem stopUnits_runs (services : List (String × Option Port × Option Port)) (w : World) :
    (stopUnits kill runId services w).runs = w.runs := by
  induction services generalizing w with
  | nil => rfl
  | cons service services ih =>
      rw [stopUnits, List.foldl_cons]
      refine (ih _).trans ?_
      cases kill <;> rfl

/-- The handles are gone, the ports are as they were. -/
theorem listServices_stopHandles (run : RunRecord) :
    listServices (RunOp.stopHandles.apply run).1 = listServices run := by
  show ((run.services.map (fun _ record => bareRecord record)).toList).map _ = _
  rw [Std.ExtTreeMap.toList_map, List.map_map]
  rfl

/-- A stop of an existing run ends with the loop over its ports, or goes through. -/
theorem stopRun_cases (hrun : s.world.runs[runId]? = some run) (hwritten : answers.written = .ok ()) :
    (∃ err ports w, releaseServices answers.host runId (listServices run) s.ports
          = (.error err, ports)
        ∧ stopRun answers kill purge runId s = (.error err, ⟨w, ports⟩))
      ∨ ∃ ports reported w, releaseServices answers.host runId (listServices run) s.ports
          = (.ok (), ports)
        ∧ stopRun answers kill purge runId s = (.ok reported, ⟨w, ports⟩)
        ∧ reported.state = .stopped
        ∧ w.runs[runId]? = if purge then none else some reported := by
  have hstopped := @lock_get runId run s.world .stopHandles hrun
  rw [stopRun]
  simp only [hstopped, listServices_stopHandles]
  cases hreleases : releaseServices answers.host runId (listServices run) s.ports with
  | mk result ports =>
      cases result with
      | error err => exact Or.inl ⟨err, ports, _, rfl, rfl⟩
      | ok u =>
          refine Or.inr ⟨ports, ?_⟩
          have hafter := @lock_get runId _
            (stopUnits kill runId (listServices run) (s.world.lock runId .stopHandles))
            (.stopAll answers.now) (by rw [stopUnits_runs]; exact hstopped)
          simp only [persistManifest, hafter, hwritten]
          refine ⟨_, _, trivial, rfl, rfl, ?_⟩
          cases purge with
          | true => simp
          | false => exact hafter

/-- **A STOP COMPLETES** exactly when every port the run's records name is still
    the run's to release. -/
theorem stop_completes_iff (answers : Answers) (kill purge : Bool) (runId : String) (s : State)
    (run : RunRecord) (hrun : s.world.runs[runId]? = some run)
    (hwritten : answers.written = .ok ()) :
    Completed answers.host purge runId run s (stopRun answers kill purge runId s)
      ↔ Releasable answers.host runId run s := by
  obtain ⟨hok, hafter⟩ := @released_services answers.host runId (listServices run) s.ports
  rw [Releasable, ← allReleased_iff]
  rcases @stopRun_cases answers kill purge runId s run hrun hwritten with
    ⟨err, ports, w, hloop, hstop⟩ | ⟨ports, reported, w, hloop, hstop, hstate, hruns⟩
  · rw [hstop]
    rw [hloop] at hok
    constructor
    · rintro ⟨⟨reported, hanswer, -⟩, -, -, -⟩
      exact nomatch hanswer
    · intro hall
      exact nomatch hok.mpr hall
  · rw [hstop]
    rw [hloop] at hok hafter
    have hall := hok.mp rfl
    refine ⟨fun _ => hall, fun _ => ⟨⟨reported, rfl, hstate⟩, ?_, ?_, ?_⟩⟩
    · cases purge with
      | true => exact hruns
      | false => exact ⟨reported, hruns, hstate⟩
    · intro x hx o _ hheld
      have hfree := free_of_allReleased hall hx
      rw [hafter rfl, hfree] at hheld
      exact nomatch hheld
    · intro port o hother
      rw [hafter rfl, releaseAll_iff]
      refine ⟨fun h => h.1, fun h => ⟨h, fun hmem => hother (ownerOf_recorded hmem)⟩⟩

end Stop

/-! ## A port that was given away -/

def stopAnswers : Answers where
  host := .lone 7
  now := "t1"
  written := .ok ()

/-- The service `web` on the fixed port 8080. -/
def webRecord : ServiceRecord :=
  let record := intoServiceRecord (.plain "web" "serve" []) .ready none none
  { record with launch := { record.launch with port := some 8080 } }

def webRun : RunRecord :=
  { RunRecord.new "r1" "dev" "/app" "/app" ∅ "t0" with
    services := (∅ : BTreeMap ServiceRecord).insert "web" webRecord
    state := .running }

/-- The run `r1` with `web`, which holds its port. -/
def webRunning : State where
  world :=
    { runs := (∅ : BTreeMap RunRecord).insert "r1" webRun
      globals := ∅
      manifests := ∅
      globalManifests := ∅
      raised := []
      paused := []
      nextHandle := 0
      serving := true
      unitOps := []
      launches := fun _ => 0 }
  ports := (reserveAvailablePort stopAnswers.host 8080 (.service "r1" "web") ⟨∅, []⟩).2

theorem stop_completes_iff_web :
    Completed stopAnswers.host false "r1" webRun webRunning
        (stopRun stopAnswers false false "r1" webRunning)
      ↔ Releasable stopAnswers.host "r1" webRun webRunning :=
  stop_completes_iff stopAnswers false false "r1" webRunning webRun (by decide +kernel) rfl

/-- After `down`, when another run was given the port. -/
def portGivenAway : State :=
  let stopped := (stopRun stopAnswers false false "r1" webRunning).2
  { stopped with
    ports := (reserveAvailablePort stopAnswers.host 8080 (.service "r2" "web") stopped.ports).2 }

/-- The first `down` answers; the second one is refused the port that the run's
    record still names. -/
theorem second_down_refused :
    (stopRun stopAnswers false false "r1" webRunning).1.isOk = true
      ∧ (portGivenAway.world.runs["r1"]?).map (·.state) = some .stopped
      ∧ (stopRun stopAnswers false false "r1" portGivenAway).1
        = .error "port 8080 is reserved by another devstack service"
      ∧ ∀ run, ¬ Completed stopAnswers.host false "r1" run portGivenAway
          (stopRun stopAnswers false false "r1" portGivenAway) := by
  have hrefused : (stopRun stopAnswers false false "r1" portGivenAway).1
      = .error "port 8080 is reserved by another devstack service" := by decide +kernel
  refine ⟨by decide +kernel, by decide +kernel, hrefused, fun run hcompleted => ?_⟩
  obtain ⟨reported, hanswer, -⟩ := hcompleted.answered
  rw [hrefused] at hanswer
  exact nomatch hanswer

end DevstackCompletion
