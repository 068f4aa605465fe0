import Devstack.Config
import Devstack.Lib.Reservation

/-! # Ports — the reservation registry

    `src/port.rs`.  Every operation reads the registry file under its lock, drops
    the reservations of processes that are gone, acts, and writes the file back
    only when the action succeeded.  The file is cut to length zero before it is
    written, so a write that fails leaves less than there was (`onFile`).

    An owner is the text `port_owner`, `capture_backend_port_owner` or
    `global_port_owner` makes of its parts; run ids and service names have no
    colon, so different parts make different texts.  What the registry says is
    its `holding`: the owners of the reservations of live processes. -/

namespace DevstackPorts

open DevstackModel DevstackConfig DevstackReservation

/-- The owner of a reservation; `other` is any text the three do not make. -/
inductive Owner where
  | service (run service : String)
  | captureBackend (run service : String)
  | global (key name : String)
  | other (text : String)
  deriving DecidableEq, Repr

/-- `PortReservationEntry`. -/
structure Entry where
  owner : Owner
  daemonPid : Nat
  deriving DecidableEq, Repr

/-- `PortReservationRegistry`. -/
abbrev Registry := Std.ExtTreeMap Port Entry

/-- What the host answers: which processes live, and for every port and owner
    whether the port could be bound when it was tried for that owner. -/
structure Host where
  pid : Nat
  isPidAlive : Nat → Bool
  bindable : Port → Owner → Bool
  alive : isPidAlive pid = true

/-- A host where nothing else lives and every port can be bound. -/
def Host.lone (pid : Nat) : Host :=
  ⟨pid, fun other => other == pid, fun _ _ => true, beq_self_eq_true pid⟩

/-- The registry, and the ports that binding port 0 will give. -/
structure Ports where
  registry : Registry
  ephemeral : List Port

section Operations

variable (host : Host)

/-- `cleanup_stale`. -/
def cleanupStale (registry : Registry) : Registry :=
  registry.filter (fun _ entry => host.isPidAlive entry.daemonPid)

/-- `with_registry` between the reading of the file and its writing. -/
def withRegistry {α : Type} (s : Ports) (action : Ports → Except String α × Ports) :
    Except String α × Ports :=
  match action { s with registry := cleanupStale host s.registry } with
  | (.ok output, s') => (.ok output, s')
  | (.error err, s') => (.error err, { s' with registry := s.registry })

/-- `reserve_specific_port`. -/
def reserveSpecificPort (port : Port) (owner : Owner) (requireAvailable : Bool) (s : Ports) :
    Except String Unit × Ports :=
  match s.registry[port]? with
  | some entry =>
      if entry.owner = owner then (.ok (), s)
      else (.error s!"port {port} is reserved by another devstack service", s)
  | none =>
      if requireAvailable && !host.bindable port owner then
        (.error s!"port {port} is unavailable", s)
      else (.ok (), { s with registry := s.registry.insert port ⟨owner, host.pid⟩ })

/-- `allocate_ephemeral_port`: the first port given that no reservation has. -/
def allocateEphemeralPort (owner : Owner) (registry : Registry) :
    List Port → Except String Port × Ports
  | [] => (.error "no free port", ⟨registry, []⟩)
  | port :: rest =>
      if registry.contains port then allocateEphemeralPort owner registry rest
      else (.ok port, ⟨registry.insert port ⟨owner, host.pid⟩, rest⟩)

/-- `reserve_port`. -/
def reservePort (port : Port) (owner : Owner) (s : Ports) : Except String Unit × Ports :=
  withRegistry host s (reserveSpecificPort host port owner false)

/-- `reserve_available_port`. -/
def reserveAvailablePort (port : Port) (owner : Owner) (s : Ports) : Except String Unit × Ports :=
  withRegistry host s (reserveSpecificPort host port owner true)

/-- `reserve_ephemeral_port`. -/
def reserveEphemeralPort (owner : Owner) (s : Ports) : Except String Port × Ports :=
  withRegistry host s (fun s => allocateEphemeralPort host owner s.registry s.ephemeral)

/-- The body of the loop of `allocate_ports`. -/
def allocatePort (owner : Owner) (service : ServiceConfig) (s : Ports) :
    Except String (Option Port) × Ports :=
  match service.port with
  | some (.fixed value) =>
      match reserveSpecificPort host value owner true s with
      | (.ok _, s) => (.ok (some value), s)
      | (.error err, s) => (.error err, s)
  | some (.none _) => (.ok none, s)
  | none =>
      match allocateEphemeralPort host owner s.registry s.ephemeral with
      | (.ok port, s) => (.ok (some port), s)
      | (.error err, s) => (.error err, s)

/-- The loop of `allocate_ports`. -/
def allocateEach (ownerFor : String → Owner) :
    List (String × ServiceConfig) → BTreeMap (Option Port) → Ports →
      Except String (BTreeMap (Option Port)) × Ports
  | [], allocated, s => (.ok allocated, s)
  | (name, service) :: rest, allocated, s =>
      match allocatePort host (ownerFor name) service s with
      | (.ok port, s) => allocateEach ownerFor rest (allocated.insert name port) s
      | (.error err, s) => (.error err, s)

/-- `allocate_ports`. -/
def allocatePorts (services : BTreeMap ServiceConfig) (ownerFor : String → Owner) (s : Ports) :
    Except String (BTreeMap (Option Port)) × Ports :=
  withRegistry host s (allocateEach host ownerFor services.toList ∅)

/-- `release_port`. -/
def releasePort (port : Port) (owner : Owner) (s : Ports) : Except String Unit × Ports :=
  withRegistry host s (fun s =>
    match s.registry[port]? with
    | some entry =>
        if entry.owner = owner then (.ok (), { s with registry := s.registry.erase port })
        else (.error s!"port {port} is reserved by another devstack service", s)
    | none => (.ok (), s))

end Operations

/-! ## The registry file -/

/-- What the file holds: a registry, the empty one if the file is blank, or a text that does
    not parse, as a write that stopped half way leaves it. -/
inductive RegistryFile where
  | holds (registry : Registry)
  | torn

/-- Where the I/O of one operation fails, if it gets there, and the error.  A process that dies
    at the same place leaves the same file. -/
inductive RegistryIo where
  | calm
  /-- The file cannot be opened, locked or read. -/
  | unread (err : String)
  /-- `set_len(0)` fails. -/
  | uncut (err : String)
  /-- The file is cut, and no byte is written. -/
  | emptied (err : String)
  /-- `write_all` stops after some bytes. -/
  | cutOff (err : String)
  /-- Everything is written, and `sync_data` fails. -/
  | unsynced (err : String)
  deriving DecidableEq, Repr

/-- Nothing fails once the file is cut. -/
def RegistryIo.sound : RegistryIo → Bool
  | .calm | .unread _ | .uncut _ => true
  | .emptied _ | .cutOff _ | .unsynced _ => false

/-- `read_registry`, of the opened and locked file. -/
def readRegistry : RegistryIo → RegistryFile → Except String Registry
  | .unread err, _ => .error err
  | _, .torn => .error "parse port reservation registry"
  | _, .holds registry => .ok registry

/-- `write_registry`. -/
def writeRegistry (registry : Registry) : RegistryIo → RegistryFile →
    Except String Unit × RegistryFile
  | .uncut err, file => (.error err, file)
  | .emptied err, _ => (.error err, .holds ∅)
  | .cutOff err, _ => (.error err, .torn)
  | .unsynced err, _ => (.error err, .holds registry)
  | .calm, _ | .unread _, _ => (.ok (), .holds registry)

/-- `with_registry` on the file, of an operation that runs `withRegistry`. -/
def onFile {α : Type} (io : RegistryIo) (ephemeral : List Port)
    (operation : Ports → Except String α × Ports) (file : RegistryFile) :
    Except String α × RegistryFile :=
  match readRegistry io file with
  | .error err => (.error err, file)
  | .ok registry =>
      match operation ⟨registry, ephemeral⟩ with
      | (.error err, _) => (.error err, file)
      | (.ok output, s) =>
          match writeRegistry s.registry io file with
          | (.ok _, file) => (.ok output, file)
          | (.error err, file) => (.error err, file)

/-- What the file says: a text that does not parse says nothing. -/
def RegistryFile.registry : RegistryFile → Registry
  | .holds registry => registry
  | .torn => ∅

/-- **WHERE NOTHING FAILS ONCE THE FILE IS CUT**, an operation that returns an error leaves
    the file as it was, and one that succeeds leaves the registry it made of the one it read. -/
theorem onFile_sound {α : Type} {io : RegistryIo} (hio : io.sound = true) {ephemeral : List Port}
    {operation : Ports → Except String α × Ports} {file file' : RegistryFile}
    {result : Except String α} (h : onFile io ephemeral operation file = (result, file')) :
    (∃ err, result = .error err ∧ file' = file)
      ∨ ∃ output s, result = .ok output ∧ file' = .holds s.registry
        ∧ operation ⟨file.registry, ephemeral⟩ = (.ok output, s) := by
  rw [onFile] at h
  cases hread : readRegistry io file with
  | error err =>
      rw [hread] at h
      cases h
      exact .inl ⟨err, rfl, rfl⟩
  | ok registry =>
      have hfile : file.registry = registry := by
        cases io <;> cases file <;> cases hread <;> rfl
      rw [hread] at h
      rw [hfile]
      dsimp only at h
      rcases hoperation : operation ⟨registry, ephemeral⟩ with ⟨err | output, s⟩
      · rw [hoperation] at h
        cases h
        exact .inl ⟨err, rfl, rfl⟩
      · rw [hoperation] at h
        dsimp only at h
        cases io with
        | calm | unread _ =>
            cases h
            exact .inr ⟨output, s, rfl, rfl, rfl⟩
        | uncut err =>
            cases h
            exact .inl ⟨err, rfl, rfl⟩
        | emptied _ | cutOff _ | unsynced _ => cases hio

/-! ## What the registry says -/

/-- The owners of the reservations of live processes. -/
def holding (host : Host) (registry : Registry) : Holding Port Owner :=
  fun port => (registry[port]?).bind (fun entry =>
    if host.isPidAlive entry.daemonPid then some entry.owner else none)

/-- A registry without reservations of processes that are gone. -/
def Clean (host : Host) (registry : Registry) : Prop :=
  ∀ (port : Port) (entry : Entry), registry[port]? = some entry →
    host.isPidAlive entry.daemonPid = true

section Holding

variable (host : Host)

theorem clean_cleanup (registry : Registry) : Clean host (cleanupStale host registry) := by
  intro port entry hget
  rw [cleanupStale, Std.ExtTreeMap.getElem?_filter] at hget
  exact (Option.pfilter_eq_some_iff.mp hget).2

theorem clean_insert {registry : Registry} (h : Clean host registry) (port : Port)
    (owner : Owner) : Clean host (registry.insert port ⟨owner, host.pid⟩) := by
  intro port' entry hget
  rw [Std.ExtTreeMap.getElem?_insert] at hget
  split at hget
  · cases hget; exact host.alive
  · exact h port' entry hget

/-- Dropping the reservations of processes that are gone changes nothing that
    the registry says. -/
theorem holding_cleanup (registry : Registry) :
    holding host (cleanupStale host registry) = holding host registry := by
  funext port
  rw [holding, holding, cleanupStale, Std.ExtTreeMap.getElem?_filter]
  cases hget : registry[port]? with
  | none => rfl
  | some entry =>
      cases halive : host.isPidAlive entry.daemonPid with
      | true => simp [Option.filter, halive]
      | false => simp [Option.filter, halive]

variable {host}

theorem holding_clean {registry : Registry} (h : Clean host registry) (port : Port) :
    holding host registry port = (registry[port]?).map (·.owner) := by
  rw [holding]
  cases hget : registry[port]? with
  | none => rfl
  | some entry => simp [h port entry hget]

theorem holding_insert {registry : Registry} (port : Port) (owner : Owner) :
    holding host (registry.insert port ⟨owner, host.pid⟩)
      = take (holding host registry) (port, owner) := by
  funext port'
  rw [holding, take, Std.ExtTreeMap.getElem?_insert]
  by_cases heq : port' = port
  · subst heq
    simp [host.alive]
  · simp [heq, Ne.symm heq, holding]

theorem holding_erase {registry : Registry} (h : Clean host registry) (port : Port)
    (owner : Owner) (hget : (registry[port]?).map (·.owner) = some owner) :
    Clean host (registry.erase port)
      ∧ holding host (registry.erase port) = release (holding host registry) (port, owner) := by
  have hclean : Clean host (registry.erase port) := by
    intro port' entry hget'
    rw [Std.ExtTreeMap.getElem?_erase] at hget'
    split at hget'
    · exact nomatch hget'
    · exact h port' entry hget'
  refine ⟨hclean, funext fun port' => ?_⟩
  rw [holding_clean hclean, release, Std.ExtTreeMap.getElem?_erase, holding_clean h]
  by_cases heq : port' = port
  · subst heq
    simp [hget]
  · simp [heq, Ne.symm heq]

end Holding

/-! ## What the operations do to it -/

section Specs

variable {host : Host}

/-- An action inside `with_registry`, on a registry without stale reservations. -/
theorem withRegistry_spec {α : Type} (s : Ports) (action : Ports → Except String α × Ports)
    (P : Holding Port Owner → Except String α → Holding Port Owner → Prop)
    (herror : ∀ s' : Ports, Clean host s'.registry → ∀ err, (action s').1 = .error err →
      P (holding host s'.registry) (.error err) (holding host s'.registry))
    (hok : ∀ s' : Ports, Clean host s'.registry → ∀ output, (action s').1 = .ok output →
      P (holding host s'.registry) (.ok output) (holding host (action s').2.registry)) :
    P (holding host s.registry) (withRegistry host s action).1
      (holding host (withRegistry host s action).2.registry) := by
  have hclean := clean_cleanup host s.registry
  have hsame := holding_cleanup host s.registry
  rw [withRegistry]
  cases hres : action { s with registry := cleanupStale host s.registry } with
  | mk result s' =>
      cases result with
      | ok output =>
          have := hok { s with registry := cleanupStale host s.registry } hclean output
            (by rw [hres])
          rw [hres, hsame] at this
          exact this
      | error err =>
          have := herror { s with registry := cleanupStale host s.registry } hclean err
            (by rw [hres])
          rw [hsame] at this
          exact this

/-- The request a call of `reserve_specific_port` makes. -/
def portRequest (host : Host) (port : Port) (owner : Owner) (requireAvailable : Bool) :
    Request Port Owner :=
  ⟨port, owner, !(requireAvailable && !host.bindable port owner)⟩

/-- `reserve_specific_port` serves one request. -/
theorem reserveSpecificPort_spec {s : Ports} (hclean : Clean host s.registry) (port : Port)
    (owner : Owner) (requireAvailable : Bool) :
    Clean host (reserveSpecificPort host port owner requireAvailable s).2.registry
      ∧ holding host (reserveSpecificPort host port owner requireAvailable s).2.registry
        = afterRequests (holding host s.registry) [portRequest host port owner requireAvailable]
      ∧ ((reserveSpecificPort host port owner requireAvailable s).1 = .ok ()
        ↔ allServed (holding host s.registry) [portRequest host port owner requireAvailable]
          = true) := by
  simp only [reserveSpecificPort, afterRequests, allServed, portRequest,
    holding_clean hclean port]
  cases hget : s.registry[port]? with
  | some entry =>
      by_cases ho : entry.owner = owner
      · simp [ho, hclean]
      · simp [ho, hclean]
  | none =>
      cases requireAvailable with
      | false => simp [clean_insert host hclean, holding_insert]
      | true =>
          rcases Bool.eq_false_or_eq_true (host.bindable port owner) with hbindable | hbindable
          · simp [hbindable, clean_insert host hclean, holding_insert]
          · simp [hbindable, hclean]

/-- `reserve_port` and `reserve_available_port` serve one request. -/
theorem reserve_spec (s : Ports) (port : Port) (owner : Owner) (requireAvailable : Bool) :
    holding host (withRegistry host s
        (reserveSpecificPort host port owner requireAvailable)).2.registry
        = afterRequests (holding host s.registry) [portRequest host port owner requireAvailable]
      ∧ ((withRegistry host s (reserveSpecificPort host port owner requireAvailable)).1 = .ok ()
        ↔ allServed (holding host s.registry) [portRequest host port owner requireAvailable]
          = true) := by
  refine withRegistry_spec s (reserveSpecificPort host port owner requireAvailable)
    (fun V result V' => V' = afterRequests V [portRequest host port owner requireAvailable]
      ∧ (result = .ok () ↔ allServed V [portRequest host port owner requireAvailable] = true))
    ?_ ?_
  · intro s' hclean err herr
    obtain ⟨-, hafter, hserved⟩ := reserveSpecificPort_spec hclean port owner requireAvailable
    rw [herr] at hserved
    have hrefused : allServed (holding host s'.registry)
        [portRequest host port owner requireAvailable] ≠ true :=
      fun h => nomatch hserved.mpr h
    exact ⟨(afterRequests_refused hrefused).symm, hserved⟩
  · intro s' hclean output hok
    obtain ⟨-, hafter, hserved⟩ := reserveSpecificPort_spec hclean port owner requireAvailable
    rw [hok] at hserved
    exact ⟨hafter, hserved⟩

/-- `allocate_ephemeral_port` takes a free port. -/
theorem allocateEphemeralPort_spec (owner : Owner) {registry : Registry}
    (hclean : Clean host registry) (ephemeral : List Port) :
    match allocateEphemeralPort host owner registry ephemeral with
    | (.ok port, s) => Clean host s.registry ∧ holding host registry port = none
        ∧ holding host s.registry = take (holding host registry) (port, owner)
    | (.error _, s) => s.registry = registry := by
  induction ephemeral with
  | nil => rfl
  | cons port rest ih =>
      rw [allocateEphemeralPort]
      cases hcontains : registry.contains port with
      | true => exact ih
      | false =>
          refine ⟨clean_insert host hclean port owner, ?_, holding_insert port owner⟩
          have hget : registry[port]? = none := by
            rw [Std.ExtTreeMap.getElem?_eq_none_of_contains_eq_false hcontains]
          rw [holding_clean hclean, hget]
          rfl

/-- `release_port` releases what the owner holds. -/
theorem releasePort_spec (s : Ports) (port : Port) (owner : Owner) :
    holding host (releasePort host port owner s).2.registry
      = release (holding host s.registry) (port, owner) := by
  -- a release that finds nothing of this owner's
  have hnothing : ∀ V : Holding Port Owner, V port ≠ some owner → V = release V (port, owner) := by
    intro V hV
    funext port'
    rw [release]
    by_cases heq : port' = port
    · subst heq
      simp [hV]
    · simp [heq]
  refine withRegistry_spec s _ (fun V _ V' => V' = release V (port, owner)) ?_ ?_
  · intro s' hclean err herr
    refine hnothing _ ?_
    rw [holding_clean hclean]
    cases hget : s'.registry[port]? with
    | none => exact fun h => by cases h
    | some entry =>
        simp only [hget] at herr
        by_cases ho : entry.owner = owner
        · rw [if_pos ho] at herr
          cases herr
        · simpa using ho
  · intro s' hclean output hok
    cases hget : s'.registry[port]? with
    | none =>
        refine hnothing _ ?_
        rw [holding_clean hclean, hget]
        exact fun h => by cases h
    | some entry =>
        simp only [hget] at hok ⊢
        by_cases ho : entry.owner = owner
        · rw [if_pos ho]
          exact (holding_erase hclean port owner (by rw [hget, Option.map_some, ho])).2
        · rw [if_neg ho] at hok
          cases hok

/-- `reserve_ephemeral_port` takes a free port. -/
theorem reserveEphemeralPort_spec (owner : Owner) (s : Ports) :
    match (reserveEphemeralPort host owner s).1 with
    | .ok port => holding host s.registry port = none
        ∧ holding host (reserveEphemeralPort host owner s).2.registry
          = take (holding host s.registry) (port, owner)
    | .error _ => holding host (reserveEphemeralPort host owner s).2.registry
        = holding host s.registry := by
  refine withRegistry_spec s _
    (fun V result V' =>
      match result with
      | .ok port => V port = none ∧ V' = take V (port, owner)
      | .error _ => V' = V) ?_ ?_
  · intro s' _ err _
    rfl
  · intro s' hclean port hok
    have hspec := allocateEphemeralPort_spec owner hclean s'.ephemeral
    cases hres : allocateEphemeralPort host owner s'.registry s'.ephemeral with
    | mk result s'' =>
        rw [hres] at hspec hok
        simp only at hok
        subst hok
        exact ⟨hspec.2.1, hspec.2.2⟩

/-! ### `allocate_ports` -/

/-- The port a service was given: its own, none, or one that was free. -/
def Placed (V V' : Holding Port Owner) (owner : Owner) (service : ServiceConfig)
    (port : Option (Option Port)) : Prop :=
  match service.port with
  | some (.fixed value) => port = some (some value) ∧ V' value = some owner
  | some (.none _) => port = some none
  | none => ∃ p, port = some (some p) ∧ V p = none ∧ V' p = some owner

/-- What the loop did to the holding `V` and to the map it fills. -/
structure Allocated (ownerFor : String → Owner) (services : List (String × ServiceConfig))
    (before after : BTreeMap (Option Port)) (V V' : Holding Port Owner) : Prop where
  takes : ∃ ops, Takes V ops V' ∧ ∀ x ∈ ops, ∃ name ∈ services.map (·.1),
    after[name]? = some (some x.1) ∧ x.2 = ownerFor name
  placed : ∀ kv ∈ services, Placed V V' (ownerFor kv.1) kv.2 after[kv.1]?
  others : ∀ name, name ∉ services.map (·.1) → after[name]? = before[name]?

theorem placed_mono {V₀ V V' V'' : Holding Port Owner} {ops ops' : List (Port × Owner)}
    (hbefore : Takes V₀ ops V) (hafter : Takes V' ops' V'') {owner : Owner}
    {service : ServiceConfig} {port : Option (Option Port)} (h : Placed V V' owner service port) :
    Placed V₀ V'' owner service port := by
  rw [Placed] at h ⊢
  cases hport : service.port with
  | none =>
      rw [hport] at h
      obtain ⟨p, hp, hfree, hheld⟩ := h
      exact ⟨p, hp, hbefore.free hfree, hafter.kept _ _ hheld⟩
  | some config =>
      rw [hport] at h
      cases config with
      | none value => exact h
      | fixed value => exact ⟨h.1, hafter.kept _ _ h.2⟩

/-- One service of the loop. -/
theorem allocatePort_spec {s s' : Ports} (hclean : Clean host s.registry) {owner : Owner}
    {service : ServiceConfig} {port : Option Port}
    (hok : allocatePort host owner service s = (.ok port, s')) :
    Clean host s'.registry
      ∧ (∃ ops, Takes (holding host s.registry) ops (holding host s'.registry)
        ∧ ∀ x ∈ ops, port = some x.1 ∧ x.2 = owner)
      ∧ Placed (holding host s.registry) (holding host s'.registry) owner service (some port) := by
  rw [allocatePort] at hok
  rw [Placed]
  cases hport : service.port with
  | none =>
      rw [hport] at hok
      have hspec := allocateEphemeralPort_spec owner hclean s.ephemeral
      cases hres : allocateEphemeralPort host owner s.registry s.ephemeral with
      | mk result s'' =>
          rw [hres] at hspec hok
          cases result with
          | error err => cases hok
          | ok p =>
              obtain ⟨hclean', hfree, hafter⟩ := hspec
              cases hok
              refine ⟨hclean', ⟨[(p, owner)], ?_, ?_⟩, p, rfl, hfree, ?_⟩
              · rw [hafter]
                exact takes_take hfree
              · intro x hx
                rw [List.mem_singleton.mp hx]
                exact ⟨rfl, rfl⟩
              · rw [hafter]
                exact if_pos rfl
  | some config =>
      rw [hport] at hok
      cases config with
      | none value =>
          cases hok
          exact ⟨hclean, ⟨[], takes_nil _, fun _ hx => (by cases hx)⟩, rfl⟩
      | fixed value =>
          obtain ⟨hclean', hafter, hserved⟩ := reserveSpecificPort_spec hclean value owner true
          cases hres : reserveSpecificPort host value owner true s with
          | mk result s'' =>
              simp only [hres] at hok hclean' hafter hserved
              cases result with
              | error err => cases hok
              | ok u =>
                  cases hok
                  have hheld := held_of_allServed (hserved.mp rfl) _ (List.mem_singleton_self _)
                  have htakes := takes_taken [portRequest host value owner true]
                    (holding host s.registry)
                  rw [← hafter] at hheld htakes
                  refine ⟨hclean', ⟨_, htakes, fun x hx => ?_⟩, rfl, hheld⟩
                  have hx := mem_taken hx
                  rw [List.map_singleton, List.mem_singleton] at hx
                  rw [hx]
                  exact ⟨rfl, rfl⟩

theorem allocateEach_spec (ownerFor : String → Owner) :
    ∀ (services : List (String × ServiceConfig)) (before after : BTreeMap (Option Port))
      (s s' : Ports), (services.map (·.1)).Nodup → Clean host s.registry →
      allocateEach host ownerFor services before s = (.ok after, s') →
        Allocated ownerFor services before after (holding host s.registry)
          (holding host s'.registry) := by
  intro services
  induction services with
  | nil =>
      intro before after s s' _ _ hok
      cases hok
      exact ⟨⟨[], takes_nil _, fun _ hx => (nomatch hx)⟩, fun _ hkv => (nomatch hkv),
        fun _ _ => rfl⟩
  | cons kv services ih =>
      obtain ⟨name, service⟩ := kv
      intro before after s s' hnodup hclean hok
      rw [List.map_cons, List.nodup_cons] at hnodup
      rw [allocateEach] at hok
      cases hres : allocatePort host (ownerFor name) service s with
      | mk result s₁ =>
          rw [hres] at hok
          cases result with
          | error err => exact nomatch hok
          | ok port =>
              obtain ⟨hclean₁, ⟨ops₁, htakes₁, hops₁⟩, hplaced₁⟩ := allocatePort_spec hclean hres
              obtain ⟨⟨ops, htakes, hops⟩, hplaced, hothers⟩ :=
                ih (before.insert name port) after s₁ s' hnodup.2 hclean₁ hok
              have hname : after[name]? = some port := by
                rw [hothers name hnodup.1]
                simp
              refine ⟨⟨ops₁ ++ ops, htakes₁.trans htakes, fun x hx => ?_⟩, fun kv hkv => ?_,
                fun other hother => ?_⟩
              · rcases List.mem_append.mp hx with hx | hx
                · obtain ⟨hport, howner⟩ := hops₁ x hx
                  exact ⟨name, List.mem_cons_self, by rw [hname, hport], howner⟩
                · obtain ⟨n, hn, hget, howner⟩ := hops x hx
                  exact ⟨n, List.mem_cons_of_mem _ hn, hget, howner⟩
              · rcases List.mem_cons.mp hkv with rfl | hkv
                · rw [hname]
                  exact placed_mono (takes_nil _) htakes hplaced₁
                · exact placed_mono htakes₁ (takes_nil _) (hplaced kv hkv)
              · rw [List.map_cons, List.mem_cons, not_or] at hother
                rw [hothers other hother.2, Std.ExtTreeMap.getElem?_insert]
                simp [Ne.symm hother.1]

/-- **ALLOCATION IS ATOMIC**: it places every service, or changes nothing. -/
theorem allocatePorts_spec (services : BTreeMap ServiceConfig) (ownerFor : String → Owner)
    (s : Ports) :
    match (allocatePorts host services ownerFor s).1 with
    | .ok after => Allocated ownerFor services.toList ∅ after (holding host s.registry)
        (holding host (allocatePorts host services ownerFor s).2.registry)
    | .error _ => holding host (allocatePorts host services ownerFor s).2.registry
        = holding host s.registry := by
  refine withRegistry_spec s _
    (fun V result V' =>
      match result with
      | .ok after => Allocated ownerFor services.toList ∅ after V V'
      | .error _ => V' = V) ?_ ?_
  · intro s' _ err _
    rfl
  · intro s' hclean after hok
    cases hres : allocateEach host ownerFor services.toList ∅ s' with
    | mk result s'' =>
        rw [hres] at hok
        simp only at hok
        subst hok
        have hnodup : (services.toList.map (·.1)).Nodup := by
          rw [Std.ExtTreeMap.map_fst_toList_eq_keys]
          exact Std.ExtTreeMap.nodup_keys
        exact allocateEach_spec ownerFor services.toList ∅ after s' s'' hnodup hclean hres

end Specs

end DevstackPorts
