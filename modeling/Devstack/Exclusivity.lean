import Devstack.Lib.Lines
import Devstack.Lib.Machine
import Devstack.Ports

/-! # Exclusivity — one owner for a port

    The five public operations of `src/port.rs`, called one after the other: the
    lock on the registry file lets no two of them overlap.  A call that returned a
    port to an owner grants it; a later `release_port` of that owner ends the grant.
    A write that fails once the file is cut takes the grants of all owners with it
    (`failed_write_not_exclusive`); where none does, ports are exclusive.

    The registry compares owners as texts.  The three texts of
    `src/app/runtime.rs` tell every run, service, key and kind apart because the
    names that `validate_name_for_path_component` accepts have no colon. -/

namespace DevstackExclusivity

open DevstackModel DevstackConfig DevstackReservation DevstackPorts DevstackMachine
open DevstackLines (cut_at)

/-! ## Owner texts -/

/-- The characters of a name. -/
def isNameChar (ch : Char) : Bool :=
  ch.isAlphanum || ch == '.' || ch == '_' || ch == '-'

/-- `validate_name_for_path_component`. -/
def validateNameForPathComponent (kind value : String) : Except String Unit :=
  if value.isEmpty then .error s!"{kind} name cannot be empty"
  else if value = "." ∨ value = ".." then .error s!"invalid {kind} name '{value}'"
  else if !value.toList.all isNameChar then
    .error s!"invalid {kind} name '{value}' (allowed: A-Z, a-z, 0-9, '.', '_', '-')"
  else .ok ()

/-- `port_owner`. -/
def portOwner (runId service : String) : String := s!"run:{runId}:{service}"

/-- `capture_backend_port_owner`. -/
def captureBackendPortOwner (runId service : String) : String :=
  s!"run:{runId}:{service}:api-capture-backend"

/-- `global_port_owner`. -/
def globalPortOwner (key service : String) : String := s!"global:{key}:{service}"

/-- `global_key`, of the hash of the project directory. -/
def globalKey (projectHash name : String) : Except String String :=
  match validateNameForPathComponent "service" name with
  | .error err => .error err
  | .ok _ => .ok s!"{projectHash}__{name}"

/-- The text of an owner. -/
def ownerText : Owner → String
  | .service run service => portOwner run service
  | .captureBackend run service => captureBackendPortOwner run service
  | .global key name => globalPortOwner key name
  | .other text => text

/-- Owners whose names the validators accept; `project_hash` is twelve hex digits. -/
def Accepted : Owner → Prop
  | .service run service | .captureBackend run service =>
      validateNameForPathComponent "run id" run = .ok ()
        ∧ validateNameForPathComponent "service" service = .ok ()
  | .global key name =>
      validateNameForPathComponent "service" name = .ok ()
        ∧ ∃ projectHash name', projectHash.toList.all Char.isAlphanum = true
          ∧ globalKey projectHash name' = .ok key
  | .other _ => False

/-- **WHICH NAMES ARE ACCEPTED.** -/
theorem validateName_ok {kind value : String} :
    validateNameForPathComponent kind value = .ok ()
      ↔ value ≠ "" ∧ value ≠ "." ∧ value ≠ ".." ∧ ∀ ch ∈ value.toList, isNameChar ch = true := by
  rw [validateNameForPathComponent]
  by_cases hempty : value = ""
  · simp [hempty]
  · by_cases hdots : value = "." ∨ value = ".."
    · simp only [String.isEmpty_iff, hempty, if_false, if_pos hdots]
      refine iff_of_false (fun h => (nomatch h)) ?_
      rintro ⟨-, hdot, hdots', -⟩
      exact hdots.elim hdot hdots'
    · cases hall : value.toList.all isNameChar with
      | false =>
          simp only [String.isEmpty_iff, hempty, if_false, if_neg hdots, Bool.not_false, if_true]
          refine iff_of_false (fun h => (nomatch h)) ?_
          rintro ⟨-, -, -, hchars⟩
          rw [List.all_eq_true.mpr hchars] at hall
          exact nomatch hall
      | true =>
          simp only [String.isEmpty_iff, hempty, if_false, if_neg hdots, Bool.not_true,
            Bool.false_eq_true, true_iff]
          exact ⟨hempty, fun h => hdots (Or.inl h), fun h => hdots (Or.inr h),
            List.all_eq_true.mp hall⟩

/-- A name that is accepted has no colon. -/
theorem no_colon {kind value : String}
    (h : validateNameForPathComponent kind value = .ok ()) : ':' ∉ value.toList := by
  intro hmem
  exact absurd ((validateName_ok.mp h).2.2.2 _ hmem) (by decide)

theorem no_colon_globalKey {projectHash name key : String}
    (hhash : projectHash.toList.all Char.isAlphanum = true)
    (h : globalKey projectHash name = .ok key) : ':' ∉ key.toList := by
  rw [globalKey] at h
  cases hname : validateNameForPathComponent "service" name with
  | error err =>
      rw [hname] at h
      exact nomatch h
  | ok u =>
      rw [hname] at h
      obtain rfl := Except.ok.inj h
      have hcolon : ':' ∉ projectHash.toList := fun hmem =>
        absurd (List.all_eq_true.mp hhash _ hmem) (by decide)
      have hname := no_colon hname
      simp [toString, hcolon, hname]

theorem portOwner_toList (runId service : String) :
    (portOwner runId service).toList
      = "run".toList ++ ':' :: (runId.toList ++ ':' :: service.toList) := by
  simp [portOwner, String.toList_append, toString]

theorem captureBackendPortOwner_toList (runId service : String) :
    (captureBackendPortOwner runId service).toList
      = "run".toList ++ ':' :: (runId.toList ++ ':' :: (service.toList
        ++ ':' :: "api-capture-backend".toList)) := by
  simp [captureBackendPortOwner, String.toList_append, toString]

theorem globalPortOwner_toList (key service : String) :
    (globalPortOwner key service).toList
      = "global".toList ++ ':' :: (key.toList ++ ':' :: service.toList) := by
  simp [globalPortOwner, String.toList_append, toString]

/-- Owners whose names are accepted have different texts. -/
theorem text_injective {o o' : Owner} (ho : Accepted o) (ho' : Accepted o')
    (htext : ownerText o = ownerText o') : o = o' := by
  -- the text after the first colon, the run or the key after the second
  have hrest : ∀ {xs ys zs ws : List Char}, xs = zs → xs ++ ':' :: ys = zs ++ ':' :: ws → ys = ws :=
    fun hxs h => (List.cons.inj (List.append_cancel_left (hxs ▸ h))).2
  have hkinds : ∀ {ys ws : List Char}, "run".toList ++ ':' :: ys ≠ "global".toList ++ ':' :: ws :=
    fun h => absurd (cut_at (by decide) (by decide) h).1 (by decide)
  have htext := congrArg String.toList htext
  cases o with
  | service run service =>
      cases o' with
      | service run' service' =>
          rw [ownerText, ownerText, portOwner_toList, portOwner_toList] at htext
          obtain ⟨hrun, hservice⟩ := cut_at (no_colon ho.1) (no_colon ho'.1) (hrest rfl htext)
          rw [String.toList_inj.mp hrun, String.toList_inj.mp hservice]
      | captureBackend run' service' =>
          rw [ownerText, ownerText, portOwner_toList, captureBackendPortOwner_toList] at htext
          obtain ⟨-, hservice⟩ := cut_at (no_colon ho.1) (no_colon ho'.1) (hrest rfl htext)
          exact absurd (hservice ▸ List.mem_append_right _ List.mem_cons_self) (no_colon ho.2)
      | global key' name' =>
          rw [ownerText, ownerText, portOwner_toList, globalPortOwner_toList] at htext
          exact absurd htext hkinds
      | other text => exact absurd ho' id
  | captureBackend run service =>
      cases o' with
      | service run' service' =>
          rw [ownerText, ownerText, portOwner_toList, captureBackendPortOwner_toList] at htext
          obtain ⟨-, hservice⟩ := cut_at (no_colon ho.1) (no_colon ho'.1) (hrest rfl htext)
          exact absurd (hservice.symm ▸ List.mem_append_right _ List.mem_cons_self)
            (no_colon ho'.2)
      | captureBackend run' service' =>
          rw [ownerText, ownerText, captureBackendPortOwner_toList,
            captureBackendPortOwner_toList] at htext
          obtain ⟨hrun, hservice⟩ := cut_at (no_colon ho.1) (no_colon ho'.1) (hrest rfl htext)
          rw [String.toList_inj.mp hrun, String.toList_inj.mp (List.append_cancel_right hservice)]
      | global key' name' =>
          rw [ownerText, ownerText, captureBackendPortOwner_toList,
            globalPortOwner_toList] at htext
          exact absurd htext hkinds
      | other text => exact absurd ho' id
  | global key name =>
      cases o' with
      | service run' service' =>
          rw [ownerText, ownerText, portOwner_toList, globalPortOwner_toList] at htext
          exact absurd htext.symm hkinds
      | captureBackend run' service' =>
          rw [ownerText, ownerText, captureBackendPortOwner_toList,
            globalPortOwner_toList] at htext
          exact absurd htext.symm hkinds
      | global key' name' =>
          rw [ownerText, ownerText, globalPortOwner_toList, globalPortOwner_toList] at htext
          obtain ⟨-, projectHash, name₁, hhash, hkey⟩ := ho
          obtain ⟨-, projectHash', name₁', hhash', hkey'⟩ := ho'
          obtain ⟨hkeys, hname⟩ := cut_at (no_colon_globalKey hhash hkey)
            (no_colon_globalKey hhash' hkey') (hrest rfl htext)
          rw [String.toList_inj.mp hkeys, String.toList_inj.mp hname]
      | other text => exact absurd ho' id
  | other text => exact absurd ho id

/-! ## Calls -/

/-- The public operations, with their arguments. -/
inductive Op where
  | reservePort (port : Port) (owner : Owner)
  | reserveAvailablePort (port : Port) (owner : Owner)
  | reserveEphemeralPort (owner : Owner)
  | allocatePorts (services : BTreeMap ServiceConfig) (ownerFor : String → Owner)
  | releasePort (port : Port) (owner : Owner)

/-- The owners an operation acts for. -/
def Op.ActsFor : Op → Owner → Prop
  | .reservePort _ owner, o | .reserveAvailablePort _ owner, o | .reserveEphemeralPort owner, o
  | .releasePort _ owner, o => o = owner
  | .allocatePorts services ownerFor, o => ∃ kv ∈ services.toList, o = ownerFor kv.1

/-- An operation as one process calls it, what the host answers it, and where its I/O on the
    registry file fails. -/
structure Call where
  host : Host
  ephemeral : List Port
  io : RegistryIo
  op : Op

/-- What a call changed for its owners: the grants it makes and the grants it ends. -/
structure Outcome where
  granted : List (Port × Owner)
  ended : List (Port × Owner)

/-- An operation on the registry that was read. -/
def Op.act (host : Host) (op : Op) (s : Ports) : Except String Outcome × Ports :=
  match op with
  | .reservePort port owner =>
      (DevstackPorts.reservePort host port owner s).map (.map fun _ => ⟨[(port, owner)], []⟩) id
  | .reserveAvailablePort port owner =>
      (DevstackPorts.reserveAvailablePort host port owner s).map
        (.map fun _ => ⟨[(port, owner)], []⟩) id
  | .reserveEphemeralPort owner =>
      (DevstackPorts.reserveEphemeralPort host owner s).map
        (.map fun port => ⟨[(port, owner)], []⟩) id
  | .allocatePorts services ownerFor =>
      (DevstackPorts.allocatePorts host services ownerFor s).map
        (.map fun allocated =>
          ⟨allocated.toList.filterMap (fun kv => kv.2.map (fun port => (port, ownerFor kv.1))),
            []⟩) id
  | .releasePort port owner =>
      (DevstackPorts.releasePort host port owner s).map (.map fun _ => ⟨[], [(port, owner)]⟩) id

/-- One call: its result and the file it leaves. -/
def Call.run (call : Call) (file : RegistryFile) : Except String Outcome × RegistryFile :=
  onFile call.io call.ephemeral (call.op.act call.host) file

/-! ## Which entries a call touches -/

/-- What became of the entries: those of live processes and of other owners are kept,
    and a new one is an owner's of `P`, made by the calling process. -/
structure Touches (host : Host) (P : Owner → Prop) (r r' : Registry) : Prop where
  kept : ∀ (port : Port) (entry : Entry), r[port]? = some entry →
    host.isPidAlive entry.daemonPid = true → ¬ P entry.owner → r'[port]? = some entry
  only : ∀ (port : Port) (entry : Entry), r'[port]? = some entry →
    r[port]? = some entry ∨ P entry.owner ∧ entry.daemonPid = host.pid

section Touches

variable {host : Host} {P : Owner → Prop} {r r' r'' : Registry}

theorem Touches.refl (r : Registry) : Touches host P r r :=
  ⟨fun _ _ h _ _ => h, fun _ _ h => Or.inl h⟩

theorem Touches.trans (h : Touches host P r r') (h' : Touches host P r' r'') :
    Touches host P r r'' := by
  refine ⟨fun port entry hget halive hP => ?_, fun port entry hget => ?_⟩
  · exact h'.kept port entry (h.kept port entry hget halive hP) halive hP
  · rcases h'.only port entry hget with hget | hnew
    · exact h.only port entry hget
    · exact Or.inr hnew

theorem touches_cleanup (r : Registry) : Touches host P r (cleanupStale host r) := by
  refine ⟨fun port entry hget halive _ => ?_, fun port entry hget => Or.inl ?_⟩
  · rw [cleanupStale, Std.ExtTreeMap.getElem?_filter, hget]
    exact Option.pfilter_eq_some_iff.mpr ⟨rfl, halive⟩
  · rw [cleanupStale, Std.ExtTreeMap.getElem?_filter] at hget
    exact (Option.pfilter_eq_some_iff.mp hget).1

theorem touches_insert {port : Port} {owner : Owner} (hP : P owner) (hfree : r[port]? = none) :
    Touches host P r (r.insert port ⟨owner, host.pid⟩) := by
  refine ⟨fun port' entry hget _ _ => ?_, fun port' entry hget => ?_⟩
  · by_cases heq : port = port'
    · rw [← heq, hfree] at hget
      exact nomatch hget
    · simp [Std.ExtTreeMap.getElem?_insert, heq, hget]
  · rw [Std.ExtTreeMap.getElem?_insert] at hget
    split at hget
    · cases hget
      exact Or.inr ⟨hP, rfl⟩
    · exact Or.inl hget

theorem touches_erase {port : Port} {entry : Entry} (hget : r[port]? = some entry)
    (hP : P entry.owner) : Touches host P r (r.erase port) := by
  refine ⟨fun port' entry' hget' _ hnot => ?_, fun port' entry' hget' => Or.inl ?_⟩
  · by_cases heq : port = port'
    · rw [← heq, hget] at hget'
      cases hget'
      exact absurd hP hnot
    · simp [Std.ExtTreeMap.getElem?_erase, heq, hget']
  · rw [Std.ExtTreeMap.getElem?_erase] at hget'
    split at hget'
    · exact nomatch hget'
    · exact hget'

theorem touches_withRegistry {α : Type} (s : Ports) (action : Ports → Except String α × Ports)
    (haction : ∀ s' : Ports, Touches host P s'.registry (action s').2.registry) :
    Touches host P s.registry (withRegistry host s action).2.registry := by
  have hboth := (@touches_cleanup host P s.registry).trans
    (haction { s with registry := cleanupStale host s.registry })
  rw [withRegistry]
  cases hres : action { s with registry := cleanupStale host s.registry } with
  | mk result s' =>
      rw [hres] at hboth
      cases result with
      | ok output => exact hboth
      | error err => exact Touches.refl s.registry

theorem touches_reserveSpecificPort {owner : Owner} (hP : P owner) (port : Port)
    (requireAvailable : Bool) (s : Ports) :
    Touches host P s.registry
      (reserveSpecificPort host port owner requireAvailable s).2.registry := by
  rw [reserveSpecificPort]
  cases hget : s.registry[port]? with
  | some entry =>
      by_cases ho : entry.owner = owner
      · simp only [if_pos ho]
        exact Touches.refl s.registry
      · simp only [if_neg ho]
        exact Touches.refl s.registry
  | none =>
      cases requireAvailable && !host.bindable port owner with
      | true => exact Touches.refl s.registry
      | false => exact touches_insert hP hget

theorem touches_allocateEphemeralPort {owner : Owner} (hP : P owner) (r : Registry)
    (ephemeral : List Port) :
    Touches host P r (allocateEphemeralPort host owner r ephemeral).2.registry := by
  induction ephemeral with
  | nil => exact Touches.refl r
  | cons port rest ih =>
      rw [allocateEphemeralPort]
      cases hcontains : r.contains port with
      | true => exact ih
      | false =>
          exact touches_insert hP (Std.ExtTreeMap.getElem?_eq_none_of_contains_eq_false hcontains)

theorem touches_allocatePort {owner : Owner} (hP : P owner) (service : ServiceConfig)
    (s : Ports) : Touches host P s.registry (allocatePort host owner service s).2.registry := by
  rw [allocatePort]
  cases service.port with
  | none =>
      have h := @touches_allocateEphemeralPort host P owner hP s.registry s.ephemeral
      cases hres : allocateEphemeralPort host owner s.registry s.ephemeral with
      | mk result s' =>
          rw [hres] at h
          cases result with
          | ok port => exact h
          | error err => exact h
  | some config =>
      cases config with
      | none value => exact Touches.refl s.registry
      | fixed value =>
          have h := @touches_reserveSpecificPort host P owner hP value true s
          cases hres : reserveSpecificPort host value owner true s with
          | mk result s' =>
              rw [hres] at h
              simp only [hres]
              cases result with
              | ok u => exact h
              | error err => exact h

theorem touches_allocateEach (ownerFor : String → Owner) (services : List (String × ServiceConfig))
    (hP : ∀ kv ∈ services, P (ownerFor kv.1)) (allocated : BTreeMap (Option Port)) (s : Ports) :
    Touches host P s.registry (allocateEach host ownerFor services allocated s).2.registry := by
  induction services generalizing allocated s with
  | nil => exact Touches.refl s.registry
  | cons kv services ih =>
      obtain ⟨name, service⟩ := kv
      have hone := @touches_allocatePort host P _ (hP _ List.mem_cons_self) service s
      rw [allocateEach]
      cases hres : allocatePort host (ownerFor name) service s with
      | mk result s' =>
          rw [hres] at hone
          cases result with
          | error err => exact hone
          | ok port =>
              exact hone.trans (ih (fun kv hkv => hP kv (List.mem_cons_of_mem _ hkv)) _ s')

end Touches

/-! ## What a call does -/

/-- What `allocate_ports` returned is held by the owners it was asked for. -/
theorem allocated_held {host : Host} {services : BTreeMap ServiceConfig}
    {ownerFor : String → Owner} {s s' : Ports} {after : BTreeMap (Option Port)}
    (hok : allocatePorts host services ownerFor s = (.ok after, s')) {name : String} {port : Port}
    (hget : after[name]? = some (some port)) :
    (∃ kv ∈ services.toList, kv.1 = name)
      ∧ holding host s'.registry port = some (ownerFor name) := by
  have hspec := @allocatePorts_spec host services ownerFor s
  rw [hok] at hspec
  obtain ⟨-, hplaced, hothers⟩ := hspec
  have hname : name ∈ services.toList.map (·.1) := by
    by_contra hnot
    rw [hothers name hnot] at hget
    exact absurd hget (by simp)
  obtain ⟨kv, hkv, rfl⟩ := List.mem_map.mp hname
  refine ⟨⟨kv, hkv, rfl⟩, ?_⟩
  have hplaced := hplaced kv hkv
  rw [Placed, hget] at hplaced
  cases hport : kv.2.port with
  | none =>
      rw [hport] at hplaced
      obtain ⟨p, hp, -, hheld⟩ := hplaced
      cases hp
      exact hheld
  | some config =>
      rw [hport] at hplaced
      cases config with
      | none value => cases hplaced
      | fixed value =>
          cases hplaced.1
          exact hplaced.2

/-- What an operation that succeeds touches, what its grants rest on, and what stays held. -/
structure Served (host : Host) (op : Op) (r : Registry) (outcome : Outcome) (r' : Registry) :
    Prop where
  touches : Touches host op.ActsFor r r'
  granted : ∀ x ∈ outcome.granted, holding host r' x.1 = some x.2
  held : ∀ (port : Port) (o : Owner), holding host r port = some o →
    (port, o) ∉ outcome.ended → holding host r' port = some o

/-- An operation that grants one port and ends nothing. -/
theorem Served.grantOne {host : Host} {op : Op} {r r' : Registry} {port : Port} {owner : Owner}
    (htouches : Touches host op.ActsFor r r') (hgranted : holding host r' port = some owner)
    (hheld : ∀ (port : Port) (o : Owner), holding host r port = some o →
      holding host r' port = some o) : Served host op r ⟨[(port, owner)], []⟩ r' := by
  refine ⟨htouches, fun x hx => ?_, fun port o hp _ => hheld port o hp⟩
  rw [List.mem_singleton.mp hx]
  exact hgranted

/-- An operation succeeds if what it runs does. -/
theorem act_ok {α : Type} {p : Except String α × Ports} {f : α → Outcome} {outcome : Outcome}
    {s : Ports} (h : p.map (Except.map f) id = (.ok outcome, s)) :
    ∃ output, p = (.ok output, s) ∧ outcome = f output := by
  obtain ⟨result, s'⟩ := p
  cases result with
  | error err => cases h
  | ok output =>
      cases h
      exact ⟨output, rfl, rfl⟩

/-- `reserve_port` and `reserve_available_port`. -/
theorem reserve_served {host : Host} {op : Op} {port : Port} {owner : Owner}
    {requireAvailable : Bool} {s s' : Ports} (hop : op.ActsFor = (· = owner))
    (hres : withRegistry host s (reserveSpecificPort host port owner requireAvailable)
      = (.ok (), s')) : Served host op s.registry ⟨[(port, owner)], []⟩ s'.registry := by
  have htouches := @touches_withRegistry host (· = owner) Unit s
    (reserveSpecificPort host port owner requireAvailable)
    (fun s' => @touches_reserveSpecificPort host (· = owner) owner rfl port requireAvailable s')
  obtain ⟨hafter, hserved⟩ := @reserve_spec host s port owner requireAvailable
  rw [hres] at htouches hafter hserved
  rw [← hop] at htouches
  refine .grantOne htouches ?_ (fun p o hp => ?_)
  · rw [hafter]
    exact held_of_allServed (hserved.mp rfl) _ (List.mem_singleton_self _)
  · rw [hafter]
    exact (takes_taken _ _).kept p o hp

theorem act_served {host : Host} {op : Op} {s s' : Ports} {outcome : Outcome}
    (h : op.act host s = (.ok outcome, s')) : Served host op s.registry outcome s'.registry := by
  cases op with
  | reservePort port owner =>
      obtain ⟨_, hres, rfl⟩ := act_ok h
      exact reserve_served rfl hres
  | reserveAvailablePort port owner =>
      obtain ⟨_, hres, rfl⟩ := act_ok h
      exact reserve_served rfl hres
  | reserveEphemeralPort owner =>
      obtain ⟨port, hres, rfl⟩ := act_ok h
      have hres : reserveEphemeralPort host owner s = (.ok port, s') := hres
      have htouches : Touches host (· = owner) s.registry
          (reserveEphemeralPort host owner s).2.registry :=
        touches_withRegistry s _ (fun s =>
          @touches_allocateEphemeralPort host (· = owner) owner rfl s.registry s.ephemeral)
      have hspec := @reserveEphemeralPort_spec host owner s
      rw [hres] at htouches hspec
      obtain ⟨hfree, hafter⟩ := hspec
      refine .grantOne htouches ?_ (fun p o hp => ?_)
      · rw [hafter]
        exact if_pos rfl
      · rw [hafter]
        exact (takes_take hfree).kept p o hp
  | allocatePorts services ownerFor =>
      obtain ⟨after, hres, rfl⟩ := act_ok h
      have hres : allocatePorts host services ownerFor s = (.ok after, s') := hres
      have htouches : Touches host (fun o => ∃ kv ∈ services.toList, o = ownerFor kv.1) s.registry
          (allocatePorts host services ownerFor s).2.registry :=
        touches_withRegistry s _ (fun s => touches_allocateEach ownerFor services.toList
          (fun kv hkv => ⟨kv, hkv, rfl⟩) ∅ s)
      have hspec := @allocatePorts_spec host services ownerFor s
      rw [hres] at htouches hspec
      obtain ⟨⟨ops, htakes, -⟩, -, -⟩ := hspec
      refine ⟨htouches, fun x hx => ?_, fun p o hp _ => htakes.kept p o hp⟩
      obtain ⟨kv, hkv, hx⟩ := List.mem_filterMap.mp hx
      obtain ⟨port, hport, rfl⟩ := Option.map_eq_some_iff.mp hx
      have hget : after[kv.1]? = some (some port) := by
        rw [← hport]
        exact Std.ExtTreeMap.mem_toList_iff_getElem?_eq_some.mp hkv
      exact (allocated_held hres hget).2
  | releasePort port owner =>
      obtain ⟨_, hres, rfl⟩ := act_ok h
      have hres : releasePort host port owner s = (.ok (), s') := hres
      have htouches : Touches host (· = owner) s.registry
          (releasePort host port owner s).2.registry := by
        refine touches_withRegistry s _ (fun s => ?_)
        cases hget : s.registry[port]? with
        | none => exact Touches.refl s.registry
        | some entry =>
            by_cases ho : entry.owner = owner
            · simp only [if_pos ho]
              exact touches_erase hget ho
            · simp only [if_neg ho]
              exact Touches.refl s.registry
      have hspec := @releasePort_spec host s port owner
      rw [hres] at htouches hspec
      refine ⟨htouches, fun _ hx => (nomatch hx), fun p o hp hnot => ?_⟩
      rw [hspec]
      exact (release_iff _ _ _ _).mpr ⟨hp, fun heq => hnot (heq ▸ List.mem_singleton_self _)⟩

/-- A call whose write does not fail once the file is cut. -/
theorem run_sound {call : Call} (hio : call.io.sound = true) (file : RegistryFile) :
    (∃ err, call.run file = (.error err, file))
      ∨ ∃ outcome r, call.run file = (.ok outcome, .holds r)
        ∧ Served call.host call.op file.registry outcome r := by
  obtain ⟨err, hresult, hfile⟩ | ⟨outcome, s, hresult, hfile, hact⟩ :=
    onFile_sound hio (rfl : onFile call.io call.ephemeral (call.op.act call.host) file = _)
  · exact .inl ⟨err, Prod.ext hresult hfile⟩
  · exact .inr ⟨outcome, s.registry, Prod.ext hresult hfile, act_served hact⟩

/-! ## Sequences of calls -/

/-- The registry file, and the grants that are not ended. -/
structure Granting where
  file : RegistryFile
  grants : List (Port × Owner)

/-- One call; one that fails makes no grant and ends none. -/
def callStep (w : Granting) (call : Call) : Granting :=
  match call.run w.file with
  | (.ok outcome, file) =>
      ⟨file, outcome.granted ++ w.grants.filter (fun x => !outcome.ended.contains x)⟩
  | (.error _, file) => ⟨file, w.grants⟩

/-- The grants that a file starts from. -/
def grantsOf (file : RegistryFile) : Granting :=
  ⟨file, file.registry.toList.map (fun kv => (kv.1, kv.2.owner))⟩

/-- An owner is live through a sequence of calls: a process that the registry records
    for it, or that calls for it, is alive at every later call. -/
structure Live (o : Owner) (r : Registry) (calls : List Call) : Prop where
  recorded : ∀ (port : Port) (entry : Entry), r[port]? = some entry → entry.owner = o →
    ∀ call ∈ calls, call.host.isPidAlive entry.daemonPid = true
  calling : calls.Pairwise (fun call later =>
    call.op.ActsFor o → later.host.isPidAlive call.host.pid = true)

/-- The registry records the owner of a grant. -/
def Recorded (r : Registry) (x : Port × Owner) : Prop := (r[x.1]?).map (·.owner) = some x.2

theorem recorded_of_holding {host : Host} {r : Registry} {port : Port} {o : Owner}
    (h : holding host r port = some o) : Recorded r (port, o) := by
  rw [holding] at h
  obtain ⟨entry, hget, howner⟩ := Option.bind_eq_some_iff.mp h
  rw [Recorded, hget]
  split at howner
  · exact howner
  · cases howner

/-- An owner that is live stays so if the call touches no entry but its own. -/
theorem Live.step {o : Owner} {r r' : Registry} {call : Call} {calls : List Call}
    (h : Live o r (call :: calls)) (htouches : Touches call.host call.op.ActsFor r r') :
    Live o r' calls := by
  obtain ⟨hfirst, hlater⟩ := List.pairwise_cons.mp h.calling
  refine ⟨fun port entry hget howner later hmem => ?_, hlater⟩
  rcases htouches.only port entry hget with hold | ⟨hacts, hpid⟩
  · exact h.recorded port entry hold howner later (List.mem_cons_of_mem _ hmem)
  · rw [hpid]
    exact hfirst later hmem (howner ▸ hacts)

/-- The grants of an owner are recorded. -/
def GrantsRecorded (o : Owner) (w : Granting) : Prop :=
  ∀ port, (port, o) ∈ w.grants → Recorded w.file.registry (port, o)

/-- One call keeps the grants of a live owner recorded, and the owner live. -/
theorem recorded_step {o : Owner} {w : Granting} {call : Call} {calls : List Call}
    (hio : call.io.sound = true) (hlive : Live o w.file.registry (call :: calls))
    (h : GrantsRecorded o w) :
    Live o (callStep w call).file.registry calls ∧ GrantsRecorded o (callStep w call) := by
  rcases run_sound hio w.file with ⟨err, hrun⟩ | ⟨outcome, r, hrun, htouches, hgranted, hheld⟩
  · have hstep : callStep w call = w := by rw [callStep, hrun]
    rw [hstep]
    exact ⟨hlive.step (Touches.refl _), h⟩
  · have hstep : callStep w call = ⟨.holds r,
        outcome.granted ++ w.grants.filter (fun x => !outcome.ended.contains x)⟩ := by
      rw [callStep, hrun]
    rw [hstep]
    refine ⟨hlive.step htouches, fun port hmem => ?_⟩
    rcases List.mem_append.mp hmem with hnew | hold
    · exact recorded_of_holding (hgranted _ hnew)
    · obtain ⟨hmem, hnot⟩ := List.mem_filter.mp hold
      have hnot : (port, o) ∉ outcome.ended := by simpa using hnot
      -- the process that the registry records for the grant is alive at this call
      have hrecorded := h port hmem
      rw [Recorded] at hrecorded
      obtain ⟨entry, hget, howner⟩ := Option.map_eq_some_iff.mp hrecorded
      have halive := hlive.recorded port entry hget howner call List.mem_cons_self
      refine recorded_of_holding (hheld port o ?_ hnot)
      rw [holding, hget, Option.bind_some, if_pos halive, howner]

theorem recorded_run {o : Owner} {calls : List Call} {w : Granting}
    (hio : ∀ call ∈ calls, call.io.sound = true) (hlive : Live o w.file.registry calls)
    (h : GrantsRecorded o w) : GrantsRecorded o (run callStep w calls) := by
  induction calls generalizing w with
  | nil => exact h
  | cons call calls ih =>
      obtain ⟨hlive, h⟩ := recorded_step (hio call List.mem_cons_self) hlive h
      exact ih (fun later hlater => hio later (List.mem_cons_of_mem _ hlater)) hlive h

theorem recorded_grantsOf (file : RegistryFile) (o : Owner) : GrantsRecorded o (grantsOf file) := by
  intro port hmem
  obtain ⟨kv, hkv, heq⟩ := List.mem_map.mp hmem
  rw [← heq, Recorded, grantsOf,
    Std.ExtTreeMap.mem_toList_iff_getElem?_eq_some.mp hkv]
  rfl

/-- The owner function tells the services of a call apart. -/
def Distinguishes (ownerFor : String → Owner) (services : BTreeMap ServiceConfig) : Prop :=
  ∀ kv ∈ services.toList, ∀ kv' ∈ services.toList, ownerFor kv.1 = ownerFor kv'.1 → kv.1 = kv'.1

/-- The callers of `allocate_ports` pass the services of a run with `port_owner`. -/
theorem distinguishes_run (run : String) (services : BTreeMap ServiceConfig) :
    Distinguishes (Owner.service run) services :=
  fun _ _ _ _ h => (Owner.service.inj h).2

/-- `ensure_globals` passes a map of one service with a constant owner. -/
theorem distinguishes_global (owner : Owner) (name : String) (service : ServiceConfig) :
    Distinguishes (fun _ => owner) ((∅ : BTreeMap ServiceConfig).insert name service) := by
  have hone : ∀ kv ∈ ((∅ : BTreeMap ServiceConfig).insert name service).toList, kv.1 = name := by
    intro kv hkv
    have hget := Std.ExtTreeMap.mem_toList_iff_getElem?_eq_some.mp hkv
    rw [Std.ExtTreeMap.getElem?_insert] at hget
    split at hget
    · next heq => exact (by simpa using heq : name = kv.1).symm
    · exact absurd hget (by simp)
  intro kv hkv kv' hkv' _
  rw [hone kv hkv, hone kv' hkv']

/-- One call of a run: it touches no entry of another live owner; `allocate_ports` gives the
    services of the call distinct ports, or leaves the file as it was. -/
structure KeepsEntries (w : Granting) (call : Call) : Prop where
  others : Touches call.host call.op.ActsFor w.file.registry (call.run w.file).2.registry
  allocates : ∀ (services : BTreeMap ServiceConfig) (ownerFor : String → Owner),
    match onFile call.io call.ephemeral (allocatePorts call.host services ownerFor) w.file with
    | (.ok after, _) => Distinguishes ownerFor services →
        ∀ (name name' : String) (port : Port), after[name]? = some (some port) →
          after[name']? = some (some port) → name = name'
    | (.error _, file) => file = w.file

/-- A run of calls: every call keeps the entries, and in the end no port is granted to two live
    owners. -/
structure Exclusive (calls : List Call) (file : RegistryFile) : Prop where
  entries : Along callStep KeepsEntries (grantsOf file) calls
  oneOwner : ∀ (port : Port) (o o' : Owner), Live o file.registry calls →
    Live o' file.registry calls → (port, o) ∈ (run callStep (grantsOf file) calls).grants →
    (port, o') ∈ (run callStep (grantsOf file) calls).grants → o = o'

theorem keepsEntries {call : Call} (hio : call.io.sound = true) (w : Granting) :
    KeepsEntries w call := by
  refine ⟨?_, fun services ownerFor => ?_⟩
  · rcases run_sound hio w.file with ⟨err, hrun⟩ | ⟨outcome, r, hrun, hserved⟩
    · rw [hrun]
      exact Touches.refl _
    · rw [hrun]
      exact hserved.touches
  · cases hres : onFile call.io call.ephemeral (allocatePorts call.host services ownerFor) w.file with
    | mk result file =>
        rcases onFile_sound hio hres with ⟨err, rfl, hfile⟩ | ⟨after, s, rfl, hfile, hok⟩
        · exact hfile
        · intro hdistinct name name' port hget hget'
          obtain ⟨⟨kv, hkv, rfl⟩, hheld⟩ := allocated_held hok hget
          obtain ⟨⟨kv', hkv', rfl⟩, hheld'⟩ := allocated_held hok hget'
          exact hdistinct kv hkv kv' hkv' (Option.some.inj (hheld.symm.trans hheld'))

/-- **PORTS ARE EXCLUSIVE** through every sequence of calls in which no write fails once the file
    is cut, and the registry's texts tell the owners apart. -/
theorem ports_exclusive {calls : List Call} (file : RegistryFile)
    (hio : ∀ call ∈ calls, call.io.sound = true) :
    Exclusive calls file
      ∧ ∀ o o' : Owner, Accepted o → Accepted o' → ownerText o = ownerText o' → o = o' := by
  refine ⟨⟨?_, fun port o o' hlive hlive' hgrant hgrant' => ?_⟩,
    fun o o' ho ho' htext => text_injective ho ho' htext⟩
  · exact along_mono callStep (fun w _ hio => keepsEntries hio w)
      (along_of_forall callStep hio _)
  · have hrecorded := recorded_run hio hlive (recorded_grantsOf file o) port hgrant
    have hrecorded' := recorded_run hio hlive' (recorded_grantsOf file o') port hgrant'
    exact Option.some.inj (hrecorded.symm.trans hrecorded')

def oneDaemon : Host := .lone 7

/-- Two runs of one daemon ask for the same port; in between an allocation fails to cut the
    file. -/
def twoRuns : List Call :=
  [⟨oneDaemon, [], .calm, .reserveAvailablePort 8080 (.service "r1" "web")⟩,
   ⟨oneDaemon, [9090], .uncut "no space left on device",
    .allocatePorts ((∅ : BTreeMap ServiceConfig).insert "api" (.ofCmd "run" [])) (.service "r2")⟩,
   ⟨oneDaemon, [], .calm, .reserveAvailablePort 8080 (.service "r2" "web")⟩]

theorem live_oneDaemon {calls : List Call} (h : ∀ call ∈ calls, call.host = oneDaemon) (o : Owner) :
    Live o ∅ calls := by
  refine ⟨fun port entry hget => ?_, ?_⟩
  · rw [Std.ExtTreeMap.getElem?_empty] at hget
    cases hget
  · refine List.pairwise_of_forall_mem_list fun call hcall later hlater _ => ?_
    rw [h call hcall, h later hlater]
    rfl

theorem ports_exclusive_twoRuns :
    (8080, Owner.service "r2" "web") ∉ (run callStep (grantsOf (.holds ∅)) twoRuns).grants
      ∧ portOwner "r1" "web" ≠ captureBackendPortOwner "r1" "web" := by
  obtain ⟨hexclusive, htexts⟩ := @ports_exclusive twoRuns (.holds ∅) (by decide)
  refine ⟨fun hgrant => ?_, fun htext => ?_⟩
  · have heq := hexclusive.oneOwner 8080 (.service "r1" "web") (.service "r2" "web")
      (live_oneDaemon (by simp [twoRuns]) _) (live_oneDaemon (by simp [twoRuns]) _)
      (by decide +kernel) hgrant
    exact absurd heq (by decide)
  · have heq := htexts (.service "r1" "web") (.captureBackend "r1" "web")
      ⟨by decide, by decide⟩ ⟨by decide, by decide⟩ htext
    cases heq

/-- The second call finds no room for what it writes; the third asks for the port that the first
    was granted. -/
def failedWrite : List Call :=
  [⟨oneDaemon, [], .calm, .reservePort 8080 (.service "r1" "web")⟩,
   ⟨oneDaemon, [9090], .emptied "no space left on device",
    .allocatePorts ((∅ : BTreeMap ServiceConfig).insert "api" (.ofCmd "run" [])) (.service "r2")⟩,
   ⟨oneDaemon, [], .calm, .reservePort 8080 (.service "r2" "web")⟩]

/-- **A WRITE THAT FAILS** after the file was cut: the allocation returns an error and leaves
    another file than before, and the port is granted twice. -/
theorem failed_write_not_exclusive :
    ¬ Along callStep KeepsEntries (grantsOf (.holds ∅)) failedWrite
      ∧ ¬ Exclusive failedWrite (.holds ∅) := by
  refine ⟨fun h => ?_, fun h => ?_⟩
  · have halloc := h.2.1.allocates ((∅ : BTreeMap ServiceConfig).insert "api" (.ofCmd "run" []))
      (.service "r2")
    generalize hcut : onFile _ _ _ _ = cut at halloc
    have hfails : cut.1.toOption = none := by rw [← hcut]; decide +kernel
    have hgone : cut.2.registry[(8080 : Port)]? = none := by rw [← hcut]; decide +kernel
    have hheld : (run callStep (grantsOf (.holds ∅)) (failedWrite.take 1)).file.registry[(8080 : Port)]?
        ≠ none := by decide +kernel
    obtain ⟨err | after, file⟩ := cut
    · have hfile : file = _ := halloc
      rw [hfile] at hgone
      exact hheld hgone
    · cases hfails
  · have heq := h.oneOwner 8080 (.service "r1" "web") (.service "r2" "web")
      (live_oneDaemon (by simp [failedWrite]) _) (live_oneDaemon (by simp [failedWrite]) _)
      (by decide +kernel) (by decide +kernel)
    exact absurd heq (by decide)

end DevstackExclusivity
