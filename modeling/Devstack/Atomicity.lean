import Devstack.Resources

/-! # Atomicity — what a failed build leaves in the registry

    Every step of a build takes ports that are free or releases ports by owner.
    `Fails` says, for each stage a build can fail at, what was taken and released
    by then; `atomic_iff` compares that with what the claim of an atomic build
    asks for. -/

namespace DevstackAtomicity

open DevstackModel DevstackStores DevstackConfig DevstackLaunch DevstackPorts DevstackReservation
open DevstackResources

/-! ## The loops, one request after the other -/

section Loops

variable (host : Host)

/-- A call that serves a list of requests, and has an output once all are served. -/
def Serves (host : Host) {α : Type} (s : Ports) (requests : List (Request Port Owner)) (output : α)
    (call : Except String α × Ports) : Prop :=
  ∃ s', holding host s'.registry = afterRequests (holding host s.registry) requests
    ∧ ((call = (.ok output, s') ∧ allServed (holding host s.registry) requests = true)
      ∨ ∃ err, call = (.error err, s') ∧ allServed (holding host s.registry) requests = false)

theorem reserve_serves (s : Ports) (port : Port) (owner : Owner) (requireAvailable : Bool) :
    Serves host s [portRequest host port owner requireAvailable] ()
      (withRegistry host s (reserveSpecificPort host port owner requireAvailable)) := by
  obtain ⟨hafter, hserved⟩ := @reserve_spec host s port owner requireAvailable
  cases hres : withRegistry host s (reserveSpecificPort host port owner requireAvailable) with
  | mk result s' =>
      rw [hres] at hafter hserved
      refine ⟨s', hafter, ?_⟩
      cases result with
      | ok u => exact Or.inl ⟨rfl, hserved.mp rfl⟩
      | error err => exact Or.inr ⟨err, rfl, Bool.eq_false_iff.mpr fun h => nomatch hserved.mpr h⟩

/-- Nothing asked, nothing done. -/
theorem serves_nil {α : Type} (s : Ports) (output : α) : Serves host s [] output (.ok output, s) :=
  ⟨s, rfl, Or.inl ⟨rfl, rfl⟩⟩

/-- The requests `reserve_port` makes for a list of reservations. -/
def requestsOf (host : Host) (xs : List (Port × Owner)) : List (Request Port Owner) :=
  xs.map (fun x => portRequest host x.1 x.2 false)

theorem reserveEach_serves (xs : List (Port × Owner)) (s : Ports) :
    Serves host s (requestsOf host xs) () (reserveEach host xs s) := by
  induction xs generalizing s with
  | nil => exact serves_nil host s ()
  | cons x xs ih =>
      obtain ⟨port, owner⟩ := x
      have hcons : requestsOf host ((port, owner) :: xs)
          = [portRequest host port owner false] ++ requestsOf host xs := rfl
      rw [Serves, hcons, afterRequests_append, allServed_append, reserveEach, reservePort]
      obtain ⟨s₁, hafter, ⟨heq, hserved⟩ | ⟨err, heq, hserved⟩⟩ :=
        reserve_serves host s port owner false
      · rw [heq, hserved, if_pos rfl, Bool.true_and, ← hafter]
        exact ih s₁
      · rw [heq, hserved]
        exact ⟨s₁, hafter, Or.inr ⟨err, rfl, rfl⟩⟩

/-- Releases whose errors are passed over. -/
theorem foldl_releasePort (xs : List (Port × Owner)) (s : Ports) :
    holding host (xs.foldl (fun s x => (releasePort host x.1 x.2 s).2) s).registry
      = releaseAll (holding host s.registry) xs := by
  induction xs generalizing s with
  | nil => rfl
  | cons x xs ih =>
      rw [List.foldl_cons, ih, releasePort_spec]
      rfl

/-- The releases `remove_services_missing_from_stack` makes for one service. -/
def removedPorts (runId : String) (existing : BTreeMap ExistingServiceSnapshot) (name : String) :
    List (Port × Owner) :=
  let publicPort := (existing[name]?).bind (·.port)
  let listenPort := (existing[name]?).bind (·.listenPort)
  (if listenPort = publicPort then []
    else listenPort.toList.map (fun p => (p, .captureBackend runId name)))
  ++ publicPort.toList.map (fun p => (p, .service runId name))

theorem releaseServicePort_spec (runId service : String) (port : Option Port) (s : Ports) :
    holding host (releaseServicePort host runId service port s).2.registry
      = releaseAll (holding host s.registry)
          (port.toList.map (fun p => (p, .service runId service))) := by
  cases port with
  | none => rfl
  | some p => exact releasePort_spec s p _

theorem releaseServiceCaptureBackendPort_spec (runId service : String)
    (port publicPort : Option Port) (s : Ports) :
    holding host (releaseServiceCaptureBackendPort host runId service port publicPort s).2.registry
      = releaseAll (holding host s.registry)
          (if port = publicPort then []
            else port.toList.map (fun p => (p, .captureBackend runId service))) := by
  cases port with
  | none => simp [releaseServiceCaptureBackendPort, releaseAll]
  | some p =>
      rw [releaseServiceCaptureBackendPort]
      by_cases h : some p = publicPort
      · rw [if_pos h, if_neg (fun hne => hne h)]
        rfl
      · rw [if_neg h, if_pos h]
        exact releasePort_spec s p _

/-- A failed removal has released some of the ports, a finished one all of them. -/
theorem releaseRemoved_spec (runId : String) (existing : BTreeMap ExistingServiceSnapshot)
    (names : List String) (s : Ports) :
    ∃ released, (∀ x ∈ released, x ∈ names.flatMap (removedPorts runId existing))
      ∧ holding host (releaseRemoved host runId existing names s).2.registry
        = releaseAll (holding host s.registry) released
      ∧ ((releaseRemoved host runId existing names s).1 = .ok ()
        → released = names.flatMap (removedPorts runId existing)) := by
  induction names generalizing s with
  | nil => exact ⟨[], fun _ h => h, rfl, fun _ => rfl⟩
  | cons name rest ih =>
      have hbackend := releaseServiceCaptureBackendPort_spec host runId name
        ((existing[name]?).bind (·.listenPort)) ((existing[name]?).bind (·.port)) s
      rw [releaseRemoved, List.flatMap_cons]
      cases hres : releaseServiceCaptureBackendPort host runId name
          ((existing[name]?).bind (·.listenPort)) ((existing[name]?).bind (·.port)) s with
      | mk result s₁ =>
          rw [hres] at hbackend
          cases result with
          | error err =>
              refine ⟨_, fun x hx => List.mem_append_left _ (List.mem_append_left _ hx), hbackend,
                fun hok => ?_⟩
              exact nomatch hok
          | ok u =>
              have hport := releaseServicePort_spec host runId name
                ((existing[name]?).bind (·.port)) s₁
              rw [hbackend, ← releaseAll_append] at hport
              change _ = releaseAll _ (removedPorts runId existing name) at hport
              cases hres' : releaseServicePort host runId name
                  ((existing[name]?).bind (·.port)) s₁ with
              | mk result s₂ =>
                  rw [hres'] at hport
                  simp only [hres']
                  cases result with
                  | error err =>
                      refine ⟨removedPorts runId existing name,
                        fun x hx => List.mem_append_left _ hx, hport, fun hok => ?_⟩
                      exact nomatch hok
                  | ok u =>
                      obtain ⟨released, hsub, hafter, hall⟩ := ih s₂
                      refine ⟨removedPorts runId existing name ++ released, fun x hx => ?_, ?_,
                        fun hok => ?_⟩
                      · exact (List.mem_append.mp hx).elim (List.mem_append_left _)
                          (fun hx => List.mem_append_right _ (hsub x hx))
                      · rw [hafter, hport, releaseAll_append]
                      · rw [hall hok]

end Loops

/-! ## The public ports of a build -/

/-- The port a service will have, where the configuration or a reused record says;
    `none` when a free one will be taken. -/
def settledPort (existing : BTreeMap ExistingServiceSnapshot) (reusePorts : Bool) (name : String)
    (service : ServiceConfig) : Option (Option Port) :=
  match service.port with
  | some (.fixed value) => some (some value)
  | some (.none _) => some none
  | none => if reusePorts then ((existing[name]?).bind (·.port)).map some else none

/-- The request `resolve_ports_for_refresh` makes for a service. -/
def refreshRequest (host : Host) (runId : String) (existing : BTreeMap ExistingServiceSnapshot)
    (reusePorts : Bool) (kv : String × ServiceConfig) : Option (Request Port Owner) :=
  ((settledPort existing reusePorts kv.1 kv.2).join).map (fun port =>
    portRequest host port (.service runId kv.1)
      (decide ((existing[kv.1]?).bind (·.port) ≠ some port)))

/-- What the public ports of a build are, and what was taken for them. -/
structure Resolved (runId : String) (services : BTreeMap ServiceConfig)
    (existing : BTreeMap ExistingServiceSnapshot) (reusePorts : Bool)
    (portMap : BTreeMap (Option Port)) (V V' : Holding Port Owner) : Prop where
  takes : ∃ ops, Takes V ops V' ∧ ∀ x ∈ ops, ∃ name ∈ services,
    portMap[name]? = some (some x.1) ∧ x.2 = .service runId name
  settled : ∀ kv ∈ services.toList, ∀ port, settledPort existing reusePorts kv.1 kv.2 = some port →
    portMap[kv.1]? = some port ∧ ∀ p, port = some p → V' p = some (.service runId kv.1)
  fresh : ∀ kv ∈ services.toList, settledPort existing reusePorts kv.1 kv.2 = none →
    ∃ p, portMap[kv.1]? = some (some p) ∧ V p = none ∧ V' p = some (.service runId kv.1)

section PublicPorts

variable (host : Host)

theorem resolvePort_serves (runId : String) (existing : BTreeMap ExistingServiceSnapshot)
    (reusePorts : Bool) (kv : String × ServiceConfig) (s : Ports) :
    Serves host s (refreshRequest host runId existing reusePorts kv).toList
      (settledPort existing reusePorts kv.1 kv.2)
      (resolvePort host runId existing reusePorts kv.1 kv.2 s) := by
  obtain ⟨name, service⟩ := kv
  simp only [refreshRequest, resolvePort, settledPort]
  cases hport : service.port with
  | some config =>
      cases config with
      | none value => exact serves_nil host s _
      | fixed value =>
          by_cases h : (existing[name]?).bind (·.port) = some value
          · simp only [h, if_true, reservePort, Option.join_some, Option.map_some, ne_eq,
              not_true_eq_false, decide_false, Option.toList_some]
            obtain ⟨s', hafter, ⟨heq, hserved⟩ | ⟨err, heq, hserved⟩⟩ :=
              reserve_serves host s value (.service runId name) false
            · rw [heq]
              exact ⟨s', hafter, Or.inl ⟨rfl, hserved⟩⟩
            · rw [heq]
              exact ⟨s', hafter, Or.inr ⟨err, rfl, hserved⟩⟩
          · simp only [h, if_false, reserveAvailablePort, Option.join_some, Option.map_some, ne_eq,
              not_false_eq_true, decide_true, Option.toList_some]
            obtain ⟨s', hafter, ⟨heq, hserved⟩ | ⟨err, heq, hserved⟩⟩ :=
              reserve_serves host s value (.service runId name) true
            · rw [heq]
              exact ⟨s', hafter, Or.inl ⟨rfl, hserved⟩⟩
            · rw [heq]
              exact ⟨s', hafter, Or.inr ⟨err, rfl, hserved⟩⟩
  | none =>
      cases reusePorts with
      | false => exact serves_nil host s _
      | true =>
          cases hexisting : (existing[name]?).bind (·.port) with
          | none => exact serves_nil host s _
          | some port =>
              simp only [reservePort, if_true, Option.map_some, Option.join_some, ne_eq,
                not_true_eq_false, decide_false, Option.toList_some]
              obtain ⟨s', hafter, ⟨heq, hserved⟩ | ⟨err, heq, hserved⟩⟩ :=
                reserve_serves host s port (.service runId name) false
              · rw [heq]
                exact ⟨s', hafter, Or.inl ⟨rfl, hserved⟩⟩
              · rw [heq]
                exact ⟨s', hafter, Or.inr ⟨err, rfl, hserved⟩⟩

/-- What the loop of `resolve_ports_for_refresh` leaves in its two maps. -/
structure Filled (existing : BTreeMap ExistingServiceSnapshot) (reusePorts : Bool)
    (kvs : List (String × ServiceConfig)) (portMap portMap' : BTreeMap (Option Port))
    (needsAlloc needsAlloc' : BTreeMap ServiceConfig) : Prop where
  ports : ∀ kv ∈ kvs, portMap'[kv.1]? = some (settledPort existing reusePorts kv.1 kv.2).join
  needs : ∀ kv ∈ kvs, needsAlloc'[kv.1]?
    = if settledPort existing reusePorts kv.1 kv.2 = none then some kv.2 else needsAlloc[kv.1]?
  otherPorts : ∀ name, name ∉ kvs.map (·.1) → portMap'[name]? = portMap[name]?
  otherNeeds : ∀ name, name ∉ kvs.map (·.1) → needsAlloc'[name]? = needsAlloc[name]?

/-- One turn of it, with the service's port settled or not. -/
theorem filled_cons {existing : BTreeMap ExistingServiceSnapshot} {reusePorts : Bool}
    {name : String} {service : ServiceConfig} {rest : List (String × ServiceConfig)}
    {portMap portMap' : BTreeMap (Option Port)} {needsAlloc needsAlloc' : BTreeMap ServiceConfig}
    (hname : name ∉ rest.map (·.1))
    (h : Filled existing reusePorts rest
      (portMap.insert name (settledPort existing reusePorts name service).join) portMap'
      (if settledPort existing reusePorts name service = none then needsAlloc.insert name service
        else needsAlloc) needsAlloc') :
    Filled existing reusePorts ((name, service) :: rest) portMap portMap' needsAlloc
      needsAlloc' := by
  refine ⟨fun kv hkv => ?_, fun kv hkv => ?_, fun other hother => ?_, fun other hother => ?_⟩
  · rcases List.mem_cons.mp hkv with rfl | hkv
    · rw [h.otherPorts name hname]
      simp
    · exact h.ports kv hkv
  · rcases List.mem_cons.mp hkv with rfl | hrest
    · rw [h.otherNeeds name hname]
      split <;> simp
    · rw [h.needs kv hrest]
      have hne : kv.1 ≠ name := fun heq => hname (heq ▸ List.mem_map_of_mem hrest)
      split
      · rfl
      · split
        · simp [Std.ExtTreeMap.getElem?_insert, Ne.symm hne]
        · rfl
  · rw [List.map_cons, List.mem_cons, not_or] at hother
    rw [h.otherPorts other hother.2, Std.ExtTreeMap.getElem?_insert]
    simp [Ne.symm hother.1]
  · rw [List.map_cons, List.mem_cons, not_or] at hother
    rw [h.otherNeeds other hother.2]
    split
    · simp [Std.ExtTreeMap.getElem?_insert, Ne.symm hother.1]
    · rfl

theorem resolveEach_spec (runId : String) (existing : BTreeMap ExistingServiceSnapshot)
    (reusePorts : Bool) (kvs : List (String × ServiceConfig)) (hnodup : (kvs.map (·.1)).Nodup)
    (portMap : BTreeMap (Option Port)) (needsAlloc : BTreeMap ServiceConfig) (s : Ports) :
    ∃ output, Filled existing reusePorts kvs portMap output.1 needsAlloc output.2
      ∧ Serves host s (kvs.filterMap (refreshRequest host runId existing reusePorts)) output
          (resolveEach host runId existing reusePorts kvs portMap needsAlloc s) := by
  induction kvs generalizing portMap needsAlloc s with
  | nil =>
      exact ⟨(portMap, needsAlloc), ⟨fun _ h => (nomatch h), fun _ h => (nomatch h),
        fun _ _ => rfl, fun _ _ => rfl⟩, serves_nil host s _⟩
  | cons kv rest ih =>
      obtain ⟨name, service⟩ := kv
      rw [List.map_cons, List.nodup_cons] at hnodup
      have hone := resolvePort_serves host runId existing reusePorts (name, service) s
      have happend : ((name, service) :: rest).filterMap
            (refreshRequest host runId existing reusePorts)
          = (refreshRequest host runId existing reusePorts (name, service)).toList
            ++ rest.filterMap (refreshRequest host runId existing reusePorts) := by
        rw [List.filterMap_cons]
        cases refreshRequest host runId existing reusePorts (name, service) <;> rfl
      simp only [Serves, happend, afterRequests_append, allServed_append]
      obtain ⟨s₁, hafter, ⟨heq, hserved⟩ | ⟨err, heq, hserved⟩⟩ := hone
      · rw [resolveEach, heq, hserved]
        obtain ⟨output, hfilled, hrest⟩ := ih hnodup.2
          (portMap.insert name (settledPort existing reusePorts name service).join)
          (if settledPort existing reusePorts name service = none then
            needsAlloc.insert name service else needsAlloc) s₁
        refine ⟨output, filled_cons hnodup.1 hfilled, ?_⟩
        simp only [Serves, hafter, Bool.true_and, if_true] at hrest ⊢
        cases hsettled : settledPort existing reusePorts name service with
        | none => simpa [hsettled] using hrest
        | some port => simpa [hsettled] using hrest
      · obtain ⟨output, hfilled, -⟩ := ih hnodup.2
          (portMap.insert name (settledPort existing reusePorts name service).join)
          (if settledPort existing reusePorts name service = none then
            needsAlloc.insert name service else needsAlloc) s₁
        refine ⟨output, filled_cons hnodup.1 hfilled, s₁, ?_, Or.inr ⟨err, ?_, ?_⟩⟩
        · rw [hserved]
          exact hafter
        · rw [resolveEach, heq]
        · rw [hserved]
          rfl

theorem port_of_not_settled {existing : BTreeMap ExistingServiceSnapshot} {reusePorts : Bool}
    {name : String} {service : ServiceConfig}
    (h : settledPort existing reusePorts name service = none) : service.port = none := by
  rw [settledPort] at h
  cases hport : service.port with
  | none => rfl
  | some config =>
      rw [hport] at h
      cases config <;> exact nomatch h

/-- A request comes from a service with a settled port. -/
theorem mem_refreshRequests {runId : String} {existing : BTreeMap ExistingServiceSnapshot}
    {reusePorts : Bool} {kvs : List (String × ServiceConfig)} {port : Port} {owner : Owner} :
    (port, owner) ∈ (kvs.filterMap (refreshRequest host runId existing reusePorts)).map
        (fun r => (r.key, r.owner))
      ↔ ∃ kv ∈ kvs, settledPort existing reusePorts kv.1 kv.2 = some (some port)
        ∧ owner = .service runId kv.1 := by
  rw [List.map_filterMap, List.mem_filterMap]
  refine exists_congr fun kv => and_congr_right fun _ => ?_
  rw [refreshRequest, Option.map_map]
  cases hsettled : settledPort existing reusePorts kv.1 kv.2 with
  | none => simp
  | some settled =>
      cases settled with
      | none => simp
      | some p => simp [portRequest, eq_comm]

/-- The ports that were settled, with those allocated for the rest. -/
theorem resolved_of_filled {runId : String} {services : BTreeMap ServiceConfig}
    {existing : BTreeMap ExistingServiceSnapshot} {reusePorts : Bool}
    {portMap allocated : BTreeMap (Option Port)} {needsAlloc : BTreeMap ServiceConfig}
    {V V₁ V₂ : Holding Port Owner}
    (hfilled : Filled existing reusePorts services.toList ∅ portMap ∅ needsAlloc)
    {requests : List (Request Port Owner)}
    (hrequests : requests
      = services.toList.filterMap (refreshRequest host runId existing reusePorts))
    (htakes : Takes V (taken V requests) V₁)
    (hheld : ∀ r ∈ requests, V₁ r.key = some r.owner)
    (hallocated : Allocated (Owner.service runId) needsAlloc.toList ∅ allocated V₁ V₂) :
    Resolved runId services existing reusePorts (portMap ∪ allocated) V V₂ := by
  obtain ⟨⟨ops, hops, hfrom⟩, hplaced, hothers⟩ := hallocated
  have hneeds : ∀ name, name ∈ needsAlloc.toList.map (·.1) ↔ name ∈ needsAlloc := by
    intro name
    rw [Std.ExtTreeMap.map_fst_toList_eq_keys, Std.ExtTreeMap.mem_keys]
  -- a settled port is not allocated anew
  have hkeeps : ∀ kv ∈ services.toList, ∀ port,
      settledPort existing reusePorts kv.1 kv.2 = some port →
        (portMap ∪ allocated)[kv.1]? = some port := by
    intro kv hkv port hport
    have hnot : kv.1 ∉ needsAlloc.toList.map (·.1) := by
      rw [hneeds, Std.ExtTreeMap.mem_iff_isSome_getElem?, hfilled.needs kv hkv, hport]
      simp
    rw [Std.ExtTreeMap.getElem?_union, hothers kv.1 hnot, hfilled.ports kv hkv, hport]
    rfl
  refine ⟨⟨_, htakes.trans hops, fun x hx => ?_⟩, fun kv hkv port hport => ⟨hkeeps kv hkv port hport,
    fun p hp => ?_⟩, fun kv hkv hnone => ?_⟩
  · rcases List.mem_append.mp hx with hx | hx
    · have hx := mem_taken hx
      rw [hrequests, show x = (x.1, x.2) from rfl, mem_refreshRequests] at hx
      obtain ⟨kv, hkv, hport, howner⟩ := hx
      have hget := Std.ExtTreeMap.mem_toList_iff_getElem?_eq_some.mp hkv
      exact ⟨kv.1, Std.ExtTreeMap.mem_iff_isSome_getElem?.mpr (by rw [hget]; rfl),
        hkeeps kv hkv _ hport, howner⟩
    · obtain ⟨name, hname, hget, howner⟩ := hfrom x hx
      refine ⟨name, ?_, ?_, howner⟩
      · by_cases hin : name ∈ services
        · exact hin
        · have hnot : name ∉ services.toList.map (·.1) := by
            rw [Std.ExtTreeMap.map_fst_toList_eq_keys, Std.ExtTreeMap.mem_keys]
            exact hin
          rw [hneeds, Std.ExtTreeMap.mem_iff_isSome_getElem?, hfilled.otherNeeds name hnot] at hname
          simp at hname
      · rw [Std.ExtTreeMap.getElem?_union, hget]
        rfl
  · subst hp
    obtain ⟨r, hr, hx⟩ := List.mem_map.mp
      ((mem_refreshRequests host).mpr ⟨kv, hkv, hport, rfl⟩)
    obtain ⟨hkey, howner⟩ := Prod.mk.inj hx
    rw [← hkey, ← howner]
    exact hops.kept _ _ (hheld r (hrequests ▸ hr))
  · have hmem : (kv.1, kv.2) ∈ needsAlloc.toList := by
      rw [Std.ExtTreeMap.mem_toList_iff_getElem?_eq_some, hfilled.needs kv hkv, if_pos hnone]
    have hone := hplaced _ hmem
    rw [Placed, port_of_not_settled hnone] at hone
    obtain ⟨p, hget, hfree, hheld'⟩ := hone
    refine ⟨p, ?_, htakes.free hfree, hheld'⟩
    rw [Std.ExtTreeMap.getElem?_union, hget]
    rfl

theorem resolvePortsForRefresh_cases (runId : String) (services : BTreeMap ServiceConfig)
    (existing : BTreeMap ExistingServiceSnapshot) (reusePorts : Bool) (s : Ports) :
    ∃ s', (∃ portMap,
        resolvePortsForRefresh host runId services existing reusePorts s = (.ok portMap, s')
          ∧ Resolved runId services existing reusePorts portMap (holding host s.registry)
              (holding host s'.registry))
      ∨ ∃ err, resolvePortsForRefresh host runId services existing reusePorts s = (.error err, s')
          ∧ holding host s'.registry = afterRequests (holding host s.registry)
              (services.toList.filterMap (refreshRequest host runId existing reusePorts)) := by
  have hnodup : (services.toList.map (·.1)).Nodup := by
    rw [Std.ExtTreeMap.map_fst_toList_eq_keys]
    exact Std.ExtTreeMap.nodup_keys
  obtain ⟨⟨portMap, needsAlloc⟩, hfilled, s₁, hafter, ⟨heq, hserved⟩ | ⟨err, heq, hserved⟩⟩ :=
    resolveEach_spec host runId existing reusePorts services.toList hnodup ∅ ∅ s
  · have htakes := takes_taken (services.toList.filterMap
      (refreshRequest host runId existing reusePorts)) (holding host s.registry)
    have hheld := held_of_allServed hserved
    rw [← hafter] at htakes hheld
    rw [resolvePortsForRefresh, heq]
    cases hempty : needsAlloc.isEmpty with
    | true =>
        have hnone : needsAlloc = ∅ := by simpa using hempty
        have hunion : portMap ∪ ∅ = portMap := by
          refine Std.ExtTreeMap.ext_getElem? fun name => ?_
          simp [Std.ExtTreeMap.getElem?_union]
        refine ⟨s₁, Or.inl ⟨portMap, by simp only [hempty, if_true], ?_⟩⟩
        rw [← hunion]
        refine resolved_of_filled host hfilled rfl htakes hheld
          ⟨⟨[], takes_nil _, fun _ hx => (nomatch hx)⟩, fun kv hkv => ?_, fun _ _ => rfl⟩
        have hget := Std.ExtTreeMap.mem_toList_iff_getElem?_eq_some.mp hkv
        rw [hnone] at hget
        simp at hget
    | false =>
        have hspec := @allocatePorts_spec host needsAlloc (Owner.service runId) s₁
        cases hres : allocatePorts host needsAlloc (Owner.service runId) s₁ with
        | mk result s₂ =>
            rw [hres] at hspec
            cases result with
            | error err =>
                refine ⟨s₂, Or.inr ⟨err, by simp only [hempty, hres]; rfl, ?_⟩⟩
                rw [← hafter]
                exact hspec
            | ok allocated =>
                refine ⟨s₂, Or.inl ⟨_, by simp only [hempty, hres]; rfl, ?_⟩⟩
                exact resolved_of_filled host hfilled rfl htakes hheld hspec
  · refine ⟨s₁, Or.inr ⟨err, ?_, hafter⟩⟩
    rw [resolvePortsForRefresh, heq]

/-- A new run settles the ports of its configuration only, and its allocation is
    atomic. -/
theorem allocatePorts_cases (runId : String) (services : BTreeMap ServiceConfig) (s : Ports) :
    ∃ s', (∃ portMap,
        allocatePorts host services (Owner.service runId) s = (.ok portMap, s')
          ∧ Resolved runId services ∅ false portMap (holding host s.registry)
              (holding host s'.registry))
      ∨ ∃ err, allocatePorts host services (Owner.service runId) s = (.error err, s')
          ∧ holding host s'.registry = holding host s.registry := by
  have hspec := @allocatePorts_spec host services (Owner.service runId) s
  cases hres : allocatePorts host services (Owner.service runId) s with
  | mk result s' =>
      rw [hres] at hspec
      cases result with
      | error err => exact ⟨s', Or.inr ⟨err, rfl, hspec⟩⟩
      | ok portMap =>
          obtain ⟨⟨ops, htakes, hops⟩, hplaced, -⟩ := hspec
          refine ⟨s', Or.inl ⟨portMap, rfl, ⟨ops, htakes, fun x hx => ?_⟩, fun kv hkv port hport => ?_,
            fun kv hkv hnone => ?_⟩⟩
          · obtain ⟨name, hname, hget, howner⟩ := hops x hx
            rw [Std.ExtTreeMap.map_fst_toList_eq_keys, Std.ExtTreeMap.mem_keys] at hname
            exact ⟨name, hname, hget, howner⟩
          · have hone := hplaced kv hkv
            rw [Placed] at hone
            rw [settledPort] at hport
            cases hconfig : kv.2.port with
            | none =>
                rw [hconfig] at hport
                cases hport
            | some config =>
                rw [hconfig] at hport hone
                cases config with
                | none value =>
                    cases hport
                    exact ⟨hone, fun p hp => by cases hp⟩
                | fixed value =>
                    cases hport
                    exact ⟨hone.1, fun p hp => Option.some.inj hp ▸ hone.2⟩
          · have hone := hplaced kv hkv
            rw [Placed, port_of_not_settled hnone] at hone
            exact hone

end PublicPorts

/-! ## The globals and the listen ports -/

/-- The owners a service of a stack reserves under. -/
def StackOwner : Owner → Prop
  | .service _ _ => True
  | .captureBackend _ _ => True
  | _ => False

/-- The listen port a refresh takes over from the service's record. -/
def reusedListenPort (existing : BTreeMap ExistingServiceSnapshot) (reusePorts : Bool)
    (name : String) (publicPort : Option Port) : Option Port :=
  if reusePorts then
    ((existing[name]?).bind (·.listenPort)).filter (fun p => some p ≠ publicPort)
  else none

/-- The listen port a captured service wants: one that is reused, or a free one. -/
def wantedListenPort (existing : BTreeMap ExistingServiceSnapshot) (reusePorts : Bool)
    (publicPort : Option Port) (kv : String × ServiceConfig) : Option (Option Port) :=
  if captureApiEnabled kv.2 publicPort.isSome (schemeOf kv.2) then
    some (reusedListenPort existing reusePorts kv.1 publicPort)
  else none

/-- What was taken for the listen ports of the services `done`. -/
structure Listening (runId : String) (existing : BTreeMap ExistingServiceSnapshot)
    (reusePorts : Bool) (portMap : BTreeMap (Option Port)) (done : List (String × ServiceConfig))
    (V V' : Holding Port Owner) : Prop where
  takes : ∃ ops, Takes V ops V' ∧ ∀ x ∈ ops, ∃ kv ∈ done, ∃ wanted,
    wantedListenPort existing reusePorts ((portMap[kv.1]?).getD none) kv = some wanted
      ∧ x.2 = .captureBackend runId kv.1 ∧ ∀ p, wanted = some p → x.1 = p
  reused : ∀ kv ∈ done, ∀ p,
    wantedListenPort existing reusePorts ((portMap[kv.1]?).getD none) kv = some (some p) →
      V' p = some (.captureBackend runId kv.1)
  fresh : ∀ kv ∈ done,
    wantedListenPort existing reusePorts ((portMap[kv.1]?).getD none) kv = some none →
      ∃ p, V p = none ∧ V' p = some (.captureBackend runId kv.1)

section ListenPorts

variable (host : Host) (runId : String) (existing : BTreeMap ExistingServiceSnapshot)
variable (reusePorts : Bool) (portMap : BTreeMap (Option Port))

theorem listening_nil (V : Holding Port Owner) :
    Listening runId existing reusePorts portMap [] V V :=
  ⟨⟨[], takes_nil V, fun _ hx => (nomatch hx)⟩, fun _ hkv => (nomatch hkv),
    fun _ hkv => (nomatch hkv)⟩

variable {runId existing reusePorts portMap} in
theorem Listening.trans {xs ys : List (String × ServiceConfig)} {V V₁ V₂ : Holding Port Owner}
    (h₁ : Listening runId existing reusePorts portMap xs V V₁)
    (h₂ : Listening runId existing reusePorts portMap ys V₁ V₂) :
    Listening runId existing reusePorts portMap (xs ++ ys) V V₂ := by
  obtain ⟨ops₁, htakes₁, hops₁⟩ := h₁.takes
  obtain ⟨ops₂, htakes₂, hops₂⟩ := h₂.takes
  refine ⟨⟨_, htakes₁.trans htakes₂, fun x hx => ?_⟩, fun kv hkv p hp => ?_, fun kv hkv hp => ?_⟩
  · rcases List.mem_append.mp hx with hx | hx
    · obtain ⟨kv, hkv, rest⟩ := hops₁ x hx
      exact ⟨kv, List.mem_append_left _ hkv, rest⟩
    · obtain ⟨kv, hkv, rest⟩ := hops₂ x hx
      exact ⟨kv, List.mem_append_right _ hkv, rest⟩
  · rcases List.mem_append.mp hkv with hkv | hkv
    · exact htakes₂.kept _ _ (h₁.reused kv hkv p hp)
    · exact h₂.reused kv hkv p hp
  · rcases List.mem_append.mp hkv with hkv | hkv
    · obtain ⟨p, hfree, hheld⟩ := h₁.fresh kv hkv hp
      exact ⟨p, hfree, htakes₂.kept _ _ hheld⟩
    · obtain ⟨p, hfree, hheld⟩ := h₂.fresh kv hkv hp
      exact ⟨p, htakes₁.free hfree, hheld⟩

theorem listening_off {V : Holding Port Owner} {kv : String × ServiceConfig}
    (h : wantedListenPort existing reusePorts ((portMap[kv.1]?).getD none) kv = none) :
    Listening runId existing reusePorts portMap [kv] V V := by
  refine ⟨⟨[], takes_nil V, fun _ hx => (nomatch hx)⟩, fun kv' hkv' p hp => ?_,
    fun kv' hkv' hp => ?_⟩
  · rw [List.mem_singleton.mp hkv', h] at hp
    exact nomatch hp
  · rw [List.mem_singleton.mp hkv', h] at hp
    exact nomatch hp

/-- A listen port that is reused is one request, -/
theorem listening_reused {V : Holding Port Owner} {kv : String × ServiceConfig} {p : Port}
    (h : wantedListenPort existing reusePorts ((portMap[kv.1]?).getD none) kv = some (some p))
    (hserved : allServed V [portRequest host p (.captureBackend runId kv.1) false] = true) :
    Listening runId existing reusePorts portMap [kv] V
      (afterRequests V [portRequest host p (.captureBackend runId kv.1) false]) := by
  refine ⟨⟨_, takes_taken _ V, fun x hx => ?_⟩, fun kv' hkv' p' hp => ?_, fun kv' hkv' hp => ?_⟩
  · have hx := mem_taken hx
    rw [List.map_singleton, List.mem_singleton] at hx
    rw [hx]
    exact ⟨kv, List.mem_singleton_self kv, _, h, rfl, fun p' hp' => Option.some.inj hp'⟩
  · rw [List.mem_singleton.mp hkv'] at hp ⊢
    rw [h] at hp
    rw [← Option.some.inj (Option.some.inj hp)]
    exact held_of_allServed hserved _ (List.mem_singleton_self _)
  · rw [List.mem_singleton.mp hkv', h] at hp
    exact nomatch hp

/-- any other is a free port. -/
theorem listening_fresh {V : Holding Port Owner} {kv : String × ServiceConfig} {p : Port}
    (h : wantedListenPort existing reusePorts ((portMap[kv.1]?).getD none) kv = some none)
    (hfree : V p = none) :
    Listening runId existing reusePorts portMap [kv] V
      (take V (p, .captureBackend runId kv.1)) := by
  refine ⟨⟨_, takes_take hfree, fun x hx => ?_⟩, fun kv' hkv' p' hp => ?_, fun kv' hkv' _ => ?_⟩
  · rw [List.mem_singleton.mp hx]
    exact ⟨kv, List.mem_singleton_self kv, _, h, rfl, fun p' hp' => nomatch hp'⟩
  · rw [List.mem_singleton.mp hkv', h] at hp
    exact nomatch hp
  · rw [List.mem_singleton.mp hkv']
    exact ⟨p, hfree, if_pos rfl⟩

theorem reserveEphemeralPort_cases (owner : Owner) (s : Ports) :
    ∃ s', (∃ p, reserveEphemeralPort host owner s = (.ok p, s') ∧ holding host s.registry p = none
        ∧ holding host s'.registry = take (holding host s.registry) (p, owner))
      ∨ ∃ err, reserveEphemeralPort host owner s = (.error err, s')
          ∧ holding host s'.registry = holding host s.registry := by
  have hspec := @reserveEphemeralPort_spec host owner s
  cases hres : reserveEphemeralPort host owner s with
  | mk result s' =>
      rw [hres] at hspec
      cases result with
      | ok p => exact ⟨s', Or.inl ⟨p, rfl, hspec⟩⟩
      | error err => exact ⟨s', Or.inr ⟨err, rfl, hspec⟩⟩

/-- What `resolve_listen_ports_for_launch` makes of the answer to a request for a free port. -/
def freshListenPort : Except String Port × Ports → Except String (Option Port) × Ports
  | (.ok port, s) => (.ok (some port), s)
  | (.error err, s) => (.error err, s)

/-- One service: its listen port is taken, or nothing changed. -/
theorem resolveListenPort_cases (kv : String × ServiceConfig) (s : Ports) :
    ∃ s', (∃ listenPort,
        resolveListenPort host runId portMap existing reusePorts kv.1 kv.2 s = (.ok listenPort, s')
          ∧ Listening runId existing reusePorts portMap [kv] (holding host s.registry)
              (holding host s'.registry))
      ∨ ∃ err, resolveListenPort host runId portMap existing reusePorts kv.1 kv.2 s
            = (.error err, s')
          ∧ holding host s'.registry = holding host s.registry := by
  have hwanted : wantedListenPort existing reusePorts ((portMap[kv.1]?).getD none) kv
      = if captureApiEnabled kv.2 ((portMap[kv.1]?).getD none).isSome (schemeOf kv.2) then
          some (reusedListenPort existing reusePorts kv.1 ((portMap[kv.1]?).getD none))
        else none := rfl
  -- a free port is taken
  have hephemeral : wantedListenPort existing reusePorts ((portMap[kv.1]?).getD none) kv
        = some none →
      ∃ s', (∃ listenPort,
          freshListenPort (reserveEphemeralPort host (.captureBackend runId kv.1) s)
            = (.ok listenPort, s')
          ∧ Listening runId existing reusePorts portMap [kv] (holding host s.registry)
              (holding host s'.registry))
        ∨ ∃ err,
          freshListenPort (reserveEphemeralPort host (.captureBackend runId kv.1) s)
            = (.error err, s')
          ∧ holding host s'.registry = holding host s.registry := by
    intro hfresh
    obtain ⟨s', ⟨p, heq, hfree, hafter⟩ | ⟨err, heq, hsame⟩⟩ :=
      reserveEphemeralPort_cases host (.captureBackend runId kv.1) s
    · rw [heq]
      refine ⟨s', Or.inl ⟨some p, rfl, ?_⟩⟩
      rw [hafter]
      exact listening_fresh runId existing reusePorts portMap hfresh hfree
    · rw [heq]
      exact ⟨s', Or.inr ⟨err, rfl, hsame⟩⟩
  simp only [resolveListenPort]
  by_cases hcapture : captureApiEnabled kv.2 ((portMap[kv.1]?).getD none).isSome (schemeOf kv.2)
      = true
  · rw [if_pos hcapture] at hwanted ⊢
    cases hpublic : (portMap[kv.1]?).getD none with
    | none =>
        rw [hpublic] at hcapture
        simp [captureApiEnabled] at hcapture
    | some own =>
        rw [hpublic] at hwanted hephemeral
        cases reusePorts with
        | false => exact hephemeral hwanted
        | true =>
            cases hlisten : (existing[kv.1]?).bind (·.listenPort) with
            | none => exact hephemeral (by rw [hwanted, reusedListenPort, hlisten]; rfl)
            | some p =>
                by_cases hsame : p = own
                · subst hsame
                  simp only [ne_eq, not_true_eq_false, if_false]
                  exact hephemeral (by rw [hwanted, reusedListenPort, hlisten]; simp)
                · simp only [ne_eq, Option.some.injEq, hsame, not_false_eq_true, if_true,
                    reservePort]
                  have hreused : wantedListenPort existing true ((portMap[kv.1]?).getD none) kv
                      = some (some p) := by
                    rw [hpublic, hwanted, reusedListenPort, hlisten]
                    simp [Option.filter, hsame]
                  obtain ⟨s', hafter, ⟨heq, hserved⟩ | ⟨err, heq, hrefused⟩⟩ :=
                    reserve_serves host s p (.captureBackend runId kv.1) false
                  · rw [heq]
                    refine ⟨s', Or.inl ⟨some p, rfl, ?_⟩⟩
                    rw [hafter]
                    exact listening_reused host runId existing true portMap hreused hserved
                  · rw [heq]
                    refine ⟨s', Or.inr ⟨err, rfl, ?_⟩⟩
                    rw [hafter, afterRequests_refused (by rw [hrefused]; exact Bool.false_ne_true)]
  · rw [if_neg hcapture] at hwanted ⊢
    exact ⟨s, Or.inl ⟨_, rfl, listening_off runId existing reusePorts portMap hwanted⟩⟩

/-- All services, or those before the one whose listen port could not be had. -/
theorem resolveListenPorts_cases (kvs : List (String × ServiceConfig))
    (hnodup : (kvs.map (·.1)).Nodup) (listenPortMap : BTreeMap (Option Port)) (s : Ports) :
    ∃ s', (∃ listenPortMap',
        resolveListenPorts host runId portMap existing reusePorts kvs listenPortMap s
            = (.ok listenPortMap', s')
          ∧ Listening runId existing reusePorts portMap kvs (holding host s.registry)
              (holding host s'.registry))
      ∨ ∃ name ∈ kvs.map (·.1), ∃ err,
        resolveListenPorts host runId portMap existing reusePorts kvs listenPortMap s
            = (.error (name, err), s')
          ∧ Listening runId existing reusePorts portMap (kvs.takeWhile (fun kv => kv.1 ≠ name))
              (holding host s.registry) (holding host s'.registry) := by
  induction kvs generalizing listenPortMap s with
  | nil => exact ⟨s, Or.inl ⟨_, rfl, listening_nil runId existing reusePorts portMap _⟩⟩
  | cons kv rest ih =>
      obtain ⟨name, service⟩ := kv
      rw [List.map_cons, List.nodup_cons] at hnodup
      rw [resolveListenPorts]
      obtain ⟨s₁, ⟨listenPort, heq, hone⟩ | ⟨err, heq, hsame⟩⟩ :=
        resolveListenPort_cases host runId existing reusePorts portMap (name, service) s
      · simp only at heq
        rw [heq]
        obtain ⟨s₂, ⟨listenPortMap', heq', hrest⟩ | ⟨failed, hfailed, err, heq', hrest⟩⟩ :=
          ih hnodup.2 (listenPortMap.insert name listenPort) s₁
        · exact ⟨s₂, Or.inl ⟨listenPortMap', heq', hone.trans hrest⟩⟩
        · have hne : name ≠ failed := fun h => hnodup.1 (h ▸ hfailed)
          refine ⟨s₂, Or.inr ⟨failed, List.mem_cons_of_mem _ hfailed, err, heq', ?_⟩⟩
          rw [List.takeWhile_cons, if_pos (by simpa using hne)]
          exact hone.trans hrest
      · simp only at heq
        rw [heq]
        refine ⟨s₁, Or.inr ⟨name, List.mem_cons_self, err, rfl, ?_⟩⟩
        rw [List.takeWhile_cons, if_neg (by simp), hsame]
        exact listening_nil runId existing reusePorts portMap _

end ListenPorts

/-! ### The globals -/

section Globals

variable (host : Host)

/-- A call that takes free ports for owners that are no stack's. -/
def TakesForeign (host : Host) (s s' : Ports) : Prop :=
  ∃ ops, Takes (holding host s.registry) ops (holding host s'.registry)
    ∧ ∀ x ∈ ops, ¬ StackOwner x.2

variable {host} in
theorem takesForeign_refl (s : Ports) : TakesForeign host s s :=
  ⟨[], takes_nil _, fun _ hx => (nomatch hx)⟩

variable {host} in
theorem TakesForeign.trans {s s₁ s₂ : Ports} (h₁ : TakesForeign host s s₁)
    (h₂ : TakesForeign host s₁ s₂) : TakesForeign host s s₂ := by
  obtain ⟨ops₁, htakes₁, hops₁⟩ := h₁
  obtain ⟨ops₂, htakes₂, hops₂⟩ := h₂
  exact ⟨_, htakes₁.trans htakes₂, fun x hx => (List.mem_append.mp hx).elim (hops₁ x) (hops₂ x)⟩

/-- A reservation for a global. -/
theorem reserve_foreign (s : Ports) (port : Port) (key name : String) (requireAvailable : Bool) :
    TakesForeign host s (withRegistry host s
      (reserveSpecificPort host port (.global key name) requireAvailable)).2 := by
  obtain ⟨hafter, -⟩ := @reserve_spec host s port (.global key name) requireAvailable
  refine ⟨_, hafter ▸ takes_taken _ _, fun x hx => ?_⟩
  have hx := mem_taken hx
  rw [List.map_singleton, List.mem_singleton] at hx
  rw [hx]
  exact id

/-- An allocation for a global. -/
theorem allocate_foreign (services : BTreeMap ServiceConfig) (key name : String) (s : Ports) :
    TakesForeign host s (allocatePorts host services (fun _ => .global key name) s).2 := by
  have hspec := @allocatePorts_spec host services (fun _ => .global key name) s
  cases hres : (allocatePorts host services (fun _ => Owner.global key name) s).1 with
  | ok allocated =>
      rw [hres] at hspec
      obtain ⟨ops, htakes, hops⟩ := hspec.takes
      refine ⟨ops, htakes, fun x hx => ?_⟩
      obtain ⟨_, _, _, howner⟩ := hops x hx
      rw [howner]
      exact id
  | error err =>
      rw [hres] at hspec
      refine ⟨[], ?_, fun _ hx => (nomatch hx)⟩
      rw [hspec]
      exact takes_nil _

theorem resolveGlobalPort_foreign (name : String) (service : ServiceConfig)
    (answers : GlobalAnswers) (s : Ports) :
    TakesForeign host s (resolveGlobalPort host name service answers s).2 := by
  have hreserve := fun port requireAvailable =>
    reserve_foreign host s port answers.key name requireAvailable
  simp only [resolveGlobalPort]
  split
  · next value _ =>
      have h : TakesForeign host s
          (if answers.active = true ∧ answers.existing.bind (·.service.port) = some value then
            reservePort host value (.global answers.key name) s
          else reserveAvailablePort host value (.global answers.key name) s).2 := by
        split
        · exact hreserve value false
        · exact hreserve value true
      split
      · next heq => rw [heq] at h; exact h
      · next heq => rw [heq] at h; exact h
  · exact takesForeign_refl s
  · split
    · next port _ =>
        have h := hreserve port false
        rw [reservePort]
        split
        · next heq => rw [heq] at h; exact h
        · next heq => rw [heq] at h; exact h
    · have h := allocate_foreign host (Std.ExtTreeMap.ofList [(name, service)]) answers.key name s
      split
      · next heq => rw [heq] at h; exact h
      · next heq => rw [heq] at h; exact h

theorem ensureEachGlobal_foreign (answers : String → GlobalAnswers)
    (kvs : List (String × ServiceConfig)) (ports : BTreeMap (Option Port)) (s : Ports) :
    TakesForeign host s (ensureEachGlobal host answers kvs ports s).2 := by
  induction kvs generalizing ports s with
  | nil => exact takesForeign_refl s
  | cons kv rest ih =>
      obtain ⟨name, service⟩ := kv
      rw [ensureEachGlobal]
      split
      · exact takesForeign_refl s
      · have hone := resolveGlobalPort_foreign host name service (answers name) s
        split
        · next heq => rw [heq] at hone; exact hone
        · next port s₁ heq =>
            rw [heq] at hone
            split
            · exact hone
            · exact hone.trans (ih (ports.insert name port) s₁)

end Globals

/-! ## How a build ends -/

/-- The requests of `sync_port_reservations_from_disk`. -/
def syncRequests (outside : Outside) : List (Request Port Owner) :=
  requestsOf outside.host (recordedRuns outside.pathExists outside.manifests
    ++ recordedGlobals outside.pathExists outside.globalManifests)

/-- What `release_unpreserved_stack_ports` releases when the globals failed: the
    listen ports are not resolved yet. -/
def releasedAfterGlobals (build : Build) (existing : BTreeMap ExistingServiceSnapshot)
    (reusePorts : Bool) (portMap : BTreeMap (Option Port)) : List (Port × Owner) :=
  build.plan.services.keys.flatMap
    (unpreservedPorts build.runId portMap ∅ (if reusePorts then existing else ∅))

section Ends

variable (outside : Outside) (build : Build) (existing : BTreeMap ExistingServiceSnapshot)
variable (reusePorts : Bool) (requests : List (Request Port Owner))

/-- The holding a build leaves, from `W`: at the stage it failed at, or when it
    succeeded.  `requests` are those of the public ports. -/
inductive Ends (W : Holding Port Owner) : Option Stage → Holding Port Owner → Prop where
  | sync : Ends W (some .sync) (afterRequests W (syncRequests outside))
  | ports (served : allServed W (syncRequests outside) = true) :
      Ends W (some .ports) (afterRequests W (syncRequests outside ++ requests))
  | globals {portMap : BTreeMap (Option Port)} {V G : Holding Port Owner}
      {ops : List (Port × Owner)}
      (resolved : Resolved build.runId build.plan.services existing reusePorts portMap
        (afterRequests W (syncRequests outside)) V)
      (takes : Takes V ops G) (foreign : ∀ x ∈ ops, ¬ StackOwner x.2) :
      Ends W (some .globals)
        (releaseAll G (releasedAfterGlobals build existing reusePorts portMap))
  | listen (name : String) {portMap : BTreeMap (Option Port)} {V G V' : Holding Port Owner}
      {ops : List (Port × Owner)}
      (resolved : Resolved build.runId build.plan.services existing reusePorts portMap
        (afterRequests W (syncRequests outside)) V)
      (takes : Takes V ops G) (foreign : ∀ x ∈ ops, ¬ StackOwner x.2)
      (listening : Listening build.runId existing reusePorts portMap
        (build.plan.services.toList.takeWhile (fun kv => kv.1 ≠ name)) G V') :
      Ends W (some (.listen name)) V'
  | done {portMap : BTreeMap (Option Port)} {V G V' : Holding Port Owner}
      {ops : List (Port × Owner)}
      (resolved : Resolved build.runId build.plan.services existing reusePorts portMap
        (afterRequests W (syncRequests outside)) V)
      (takes : Takes V ops G) (foreign : ∀ x ∈ ops, ¬ StackOwner x.2)
      (listening : Listening build.runId existing reusePorts portMap
        build.plan.services.toList G V') :
      Ends W none V'

variable {existing reusePorts} in
/-- The globals' ports do not touch those of the plan's services. -/
theorem Resolved.union {portMap : BTreeMap (Option Port)} {V V' : Holding Port Owner}
    (h : Resolved build.runId build.plan.services existing reusePorts portMap V V')
    (globalPorts : BTreeMap (Option Port)) :
    Resolved build.runId build.plan.services existing reusePorts (globalPorts ∪ portMap) V V' := by
  have hget : ∀ (name : String) (port : Option Port), portMap[name]? = some port →
      (globalPorts ∪ portMap)[name]? = some port := by
    intro name port hport
    rw [Std.ExtTreeMap.getElem?_union, hport]
    rfl
  obtain ⟨ops, htakes, hops⟩ := h.takes
  refine ⟨⟨ops, htakes, fun x hx => ?_⟩, fun kv hkv port hport => ?_, fun kv hkv hnone => ?_⟩
  · obtain ⟨name, hname, hport, howner⟩ := hops x hx
    exact ⟨name, hname, hget _ _ hport, howner⟩
  · exact ⟨hget _ _ (h.settled kv hkv port hport).1, (h.settled kv hkv port hport).2⟩
  · obtain ⟨p, hport, hheld⟩ := h.fresh kv hkv hnone
    exact ⟨p, hget _ _ hport, hheld⟩

theorem finishLaunchResources_cases {portMap : BTreeMap (Option Port)} {W : Holding Port Owner}
    (s : Ports)
    (hresolved : Resolved build.runId build.plan.services existing reusePorts portMap
      (afterRequests W (syncRequests outside)) (holding outside.host s.registry)) :
    ∃ s', (∃ resources,
        finishLaunchResources outside build existing reusePorts portMap s = (.ok resources, s')
          ∧ Ends outside build existing reusePorts requests W none
              (holding outside.host s'.registry))
      ∨ ∃ failure,
        finishLaunchResources outside build existing reusePorts portMap s = (.error failure, s')
          ∧ Ends outside build existing reusePorts requests W (some failure.stage)
              (holding outside.host s'.registry) := by
  have hnodup : (build.plan.services.toList.map (·.1)).Nodup := by
    rw [Std.ExtTreeMap.map_fst_toList_eq_keys]
    exact Std.ExtTreeMap.nodup_keys
  obtain ⟨ops, htakes, hforeign⟩ :=
    ensureEachGlobal_foreign outside.host outside.globals build.globals.toList ∅ s
  simp only [finishLaunchResources, ensureGlobals]
  cases hglobals : ensureEachGlobal outside.host outside.globals build.globals.toList ∅ s with
  | mk result s₁ =>
      rw [hglobals] at htakes
      cases result with
      | error err =>
          refine ⟨_, Or.inr ⟨_, rfl, ?_⟩⟩
          rw [releaseUnpreservedStackPorts, foldl_releasePort]
          exact .globals hresolved htakes hforeign
      | ok globalPorts =>
          have hresolved := hresolved.union build globalPorts
          obtain ⟨s₂, ⟨listenPortMap, heq, hlisten⟩ | ⟨name, -, err, heq, hlisten⟩⟩ :=
            resolveListenPorts_cases outside.host build.runId existing reusePorts
              (globalPorts ∪ portMap) build.plan.services.toList hnodup ∅ s₁
          · simp only [heq, buildBaseEnv]
            exact ⟨s₂, Or.inl ⟨_, rfl, .done hresolved htakes hforeign hlisten⟩⟩
          · simp only [heq]
            exact ⟨s₂, Or.inr ⟨_, rfl, .listen name hresolved htakes hforeign hlisten⟩⟩

/-- `build_new_launch_resources` settles what the configuration says; its
    allocation is atomic, so no request of it is ever left half served. -/
theorem buildNewLaunchResources_cases (s : Ports) :
    ∃ s', (∃ resources, buildNewLaunchResources outside build s = (.ok resources, s')
        ∧ Ends outside build ∅ false [] (holding outside.host s.registry) none
            (holding outside.host s'.registry))
      ∨ ∃ failure, buildNewLaunchResources outside build s = (.error failure, s')
        ∧ Ends outside build ∅ false [] (holding outside.host s.registry) (some failure.stage)
            (holding outside.host s'.registry) := by
  rw [buildNewLaunchResources, syncPortReservationsFromDisk]
  obtain ⟨s₁, hafter, ⟨heq, hserved⟩ | ⟨err, heq, hserved⟩⟩ :=
    reserveEach_serves outside.host (recordedRuns outside.pathExists outside.manifests
      ++ recordedGlobals outside.pathExists outside.globalManifests) s
  · simp only [heq]
    obtain ⟨s₂, ⟨portMap, heq', hresolved⟩ | ⟨err, heq', hsame⟩⟩ :=
      allocatePorts_cases outside.host build.runId build.plan.services s₁
    · simp only [heq']
      rw [hafter] at hresolved
      exact finishLaunchResources_cases outside build ∅ false [] s₂ hresolved
    · simp only [heq']
      refine ⟨s₂, Or.inr ⟨_, rfl, ?_⟩⟩
      rw [hsame, hafter]
      have hports : Ends outside build ∅ false [] (holding outside.host s.registry)
          (some .ports) _ := .ports hserved
      rw [List.append_nil] at hports
      exact hports
  · simp only [heq]
    refine ⟨s₁, Or.inr ⟨_, rfl, ?_⟩⟩
    rw [hafter]
    exact .sync

/-- `build_refresh_launch_resources`. -/
theorem buildRefreshLaunchResources_cases (s : Ports) :
    ∃ s', (∃ resources,
        buildRefreshLaunchResources outside build existing reusePorts s = (.ok resources, s')
        ∧ Ends outside build existing reusePorts
            (build.plan.services.toList.filterMap
              (refreshRequest outside.host build.runId existing reusePorts))
            (holding outside.host s.registry) none (holding outside.host s'.registry))
      ∨ ∃ failure,
        buildRefreshLaunchResources outside build existing reusePorts s = (.error failure, s')
        ∧ Ends outside build existing reusePorts
            (build.plan.services.toList.filterMap
              (refreshRequest outside.host build.runId existing reusePorts))
            (holding outside.host s.registry) (some failure.stage)
            (holding outside.host s'.registry) := by
  rw [buildRefreshLaunchResources, syncPortReservationsFromDisk]
  obtain ⟨s₁, hafter, ⟨heq, hserved⟩ | ⟨err, heq, hserved⟩⟩ :=
    reserveEach_serves outside.host (recordedRuns outside.pathExists outside.manifests
      ++ recordedGlobals outside.pathExists outside.globalManifests) s
  · simp only [heq]
    obtain ⟨s₂, ⟨portMap, heq', hresolved⟩ | ⟨err, heq', hports⟩⟩ :=
      resolvePortsForRefresh_cases outside.host build.runId build.plan.services existing
        reusePorts s₁
    · simp only [heq']
      rw [hafter] at hresolved
      exact finishLaunchResources_cases outside build existing reusePorts _ s₂ hresolved
    · simp only [heq']
      refine ⟨s₂, Or.inr ⟨_, rfl, ?_⟩⟩
      rw [hports, hafter]
      have happend := afterRequests_append (syncRequests outside)
        (build.plan.services.toList.filterMap
          (refreshRequest outside.host build.runId existing reusePorts))
        (holding outside.host s.registry)
      rw [syncRequests, hserved, if_pos rfl] at happend
      rw [← happend]
      exact .ports hserved
  · simp only [heq]
    refine ⟨s₁, Or.inr ⟨_, rfl, ?_⟩⟩
    rw [hafter]
    exact .sync

/-! ## When what is left is what was there -/

/-- No port of a stack was taken that its owner did not hold at the start, `V`. -/
def KeptBy (V : Holding Port Owner) (ops : List (Port × Owner)) : Prop :=
  ∀ x ∈ ops, StackOwner x.2 → V x.1 = some x.2

/-- The reservations asked for the services with a settled port. -/
def settledReservations : List (Port × Owner) :=
  build.plan.services.toList.filterMap (fun kv =>
    ((settledPort existing reusePorts kv.1 kv.2).join).map (fun p => (p, .service build.runId kv.1)))

/-- What is released after the globals failed, as the configuration and the
    existing services settle it. -/
def settledReleases : List (Port × Owner) :=
  releasedAfterGlobals build existing reusePorts
    (build.plan.services.map (fun name service =>
      (settledPort existing reusePorts name service).join))

/-- Nothing new was taken for the services `done`, from `W`, with `V` at the start. -/
structure Quiet (V W : Holding Port Owner) (done : List (String × ServiceConfig)) : Prop where
  recorded : KeptBy V (taken W (syncRequests outside))
  ports : ∀ kv ∈ build.plan.services.toList, ∃ port,
    settledPort existing reusePorts kv.1 kv.2 = some port
      ∧ ∀ p, port = some p → V p = some (.service build.runId kv.1)
  listen : ∀ kv ∈ done, ∀ wanted,
    wantedListenPort existing reusePorts (settledPort existing reusePorts kv.1 kv.2).join kv
        = some wanted →
      ∃ p, wanted = some p ∧ V p = some (.captureBackend build.runId kv.1)

/-- The releases after a failure of the globals undo exactly what was taken. -/
structure Undone (V W : Holding Port Owner) : Prop where
  recorded : ∀ x ∈ taken W (syncRequests outside), StackOwner x.2 →
    V x.1 = some x.2 ∨ x ∈ settledReleases build existing reusePorts
  ports : ∀ x ∈ settledReservations build existing reusePorts,
    V x.1 = some x.2 ∨ x ∈ settledReleases build existing reusePorts
  released : ∀ x ∈ settledReleases build existing reusePorts, V x.1 ≠ some x.2

/-- The condition at each stage a build can fail at. -/
def Undisturbed (V W : Holding Port Owner) : Stage → Prop
  | .sync => KeptBy V (taken W (syncRequests outside))
  | .ports => KeptBy V (taken W (syncRequests outside ++ requests))
  | .globals => Undone outside build existing reusePorts V W
  | .listen name => Quiet outside build existing reusePorts V W
      (build.plan.services.toList.takeWhile (fun kv => kv.1 ≠ name))
  | .create => Quiet outside build existing reusePorts V W build.plan.services.toList
  | _ => True

section Conditions

variable {outside build existing reusePorts requests}
variable {V V' : Holding Port Owner} {dropped : List (Port × Owner)}

/-- What the services of the plan hold is not dropped. -/
def SparesPlan (build : Build) (dropped : List (Port × Owner)) : Prop :=
  ∀ x ∈ dropped, ∀ name ∈ build.plan.services,
    x.2 ≠ .service build.runId name ∧ x.2 ≠ .captureBackend build.runId name

theorem SparesPlan.held (h : SparesPlan build dropped) {name : String}
    (hname : name ∈ build.plan.services) {p : Port} {owner : Owner}
    (howner : owner = .service build.runId name ∨ owner = .captureBackend build.runId name)
    (hheld : V p = some owner) : releaseAll V dropped p = some owner := by
  refine (releaseAll_iff _ _ _ _).mpr ⟨hheld, fun hx => ?_⟩
  rcases howner with rfl | rfl
  · exact (h _ hx name hname).1 rfl
  · exact (h _ hx name hname).2 rfl

theorem mem_services_of_mem_toList {services : BTreeMap ServiceConfig}
    {kv : String × ServiceConfig} (h : kv ∈ services.toList) : kv.1 ∈ services := by
  rw [Std.ExtTreeMap.mem_iff_isSome_getElem?, Std.ExtTreeMap.mem_toList_iff_getElem?_eq_some.mp h]
  rfl

/-- The public port a listen port is resolved beside, once it is settled. -/
theorem Resolved.publicPort {services : BTreeMap ServiceConfig} {runId : String}
    {portMap : BTreeMap (Option Port)} {S : Holding Port Owner}
    (h : Resolved runId services existing reusePorts portMap S V)
    {kv : String × ServiceConfig} (hkv : kv ∈ services.toList) {port : Option Port}
    (hport : settledPort existing reusePorts kv.1 kv.2 = some port) :
    (portMap[kv.1]?).getD none = (settledPort existing reusePorts kv.1 kv.2).join := by
  rw [(h.settled kv hkv port hport).1, hport]
  rfl

/-- **NOTHING IS RELEASED AGAIN** when a listen port fails, or when the run exists:
    what is left is what was there exactly when nothing new was taken. -/
theorem restored_iff_quiet (hspares : SparesPlan build dropped)
    {portMap : BTreeMap (Option Port)} {V₁ G : Holding Port Owner} {ops : List (Port × Owner)}
    {done : List (String × ServiceConfig)} (hdone : ∀ kv ∈ done, kv ∈ build.plan.services.toList)
    (hresolved : Resolved build.runId build.plan.services existing reusePorts portMap
      (afterRequests (releaseAll V dropped) (syncRequests outside)) V₁)
    (htakes : Takes V₁ ops G) (hforeign : ∀ x ∈ ops, ¬ StackOwner x.2)
    (hlisten : Listening build.runId existing reusePorts portMap done G V') :
    Restored StackOwner dropped V V'
      ↔ Quiet outside build existing reusePorts V (releaseAll V dropped) done := by
  have hsync := takes_taken (syncRequests outside) (releaseAll V dropped)
  obtain ⟨ops₂, htakes₂, hops₂⟩ := hresolved.takes
  obtain ⟨ops₄, htakes₄, hops₄⟩ := hlisten.takes
  have hlate := (htakes.trans htakes₄).kept
  have hall := ((hsync.trans htakes₂).trans htakes).trans htakes₄
  constructor
  · intro hrestored
    have hback : ∀ k o, StackOwner o → V' k = some o → V k = some o :=
      fun k o ho => (hrestored k o ho).1
    have hports : ∀ kv ∈ build.plan.services.toList, ∃ port,
        settledPort existing reusePorts kv.1 kv.2 = some port
          ∧ ∀ p, port = some p → V p = some (.service build.runId kv.1) := by
      intro kv hkv
      cases hsettled : settledPort existing reusePorts kv.1 kv.2 with
      | none =>
          -- a port that was free is new
          obtain ⟨p, -, hfree, hheld⟩ := hresolved.fresh kv hkv hsettled
          have hV := hback p (.service build.runId kv.1) trivial (hlate _ _ hheld)
          have hW := hspares.held (mem_services_of_mem_toList hkv) (Or.inl rfl) hV
          rw [hsync.kept _ _ hW] at hfree
          exact nomatch hfree
      | some port =>
          exact ⟨port, rfl, fun p hp => hback p _ trivial
            (hlate _ _ ((hresolved.settled kv hkv port hsettled).2 p hp))⟩
    refine ⟨fun x hx ho => ?_, hports, fun kv hkv wanted hwanted => ?_⟩
    · exact hback x.1 x.2 ho (hlate _ _ (htakes₂.kept _ _ (hsync.took x hx).2))
    · obtain ⟨port, hport, -⟩ := hports kv (hdone kv hkv)
      rw [← hresolved.publicPort (hdone kv hkv) hport] at hwanted
      cases wanted with
      | none =>
          obtain ⟨p, hfree, hheld⟩ := hlisten.fresh kv hkv hwanted
          have hV := hback p (.captureBackend build.runId kv.1) trivial hheld
          have hW := hspares.held (mem_services_of_mem_toList (hdone kv hkv)) (Or.inr rfl) hV
          rw [((hsync.trans htakes₂).trans htakes).kept _ _ hW] at hfree
          exact nomatch hfree
      | some p => exact ⟨p, rfl, hback p _ trivial (hlisten.reused kv hkv p hwanted)⟩
  · intro hquiet
    refine (restored_iff_kept hall).mpr fun x hx ho => ?_
    simp only [List.mem_append] at hx
    rcases hx with ((hx | hx) | hx) | hx
    · exact hquiet.recorded x hx ho
    · obtain ⟨name, hname, hget, howner⟩ := hops₂ x hx
      obtain ⟨service, hservice⟩ := Option.isSome_iff_exists.mp
        (Std.ExtTreeMap.mem_iff_isSome_getElem?.mp hname)
      have hkv : (name, service) ∈ build.plan.services.toList :=
        Std.ExtTreeMap.mem_toList_iff_getElem?_eq_some.mpr hservice
      obtain ⟨port, hport, hheld⟩ := hquiet.ports _ hkv
      have hsame := (hresolved.settled _ hkv port hport).1
      rw [hget] at hsame
      rw [howner]
      exact hheld x.1 (Option.some.inj hsame).symm
    · exact absurd ho (hforeign x hx)
    · obtain ⟨kv, hkv, wanted, hwanted, howner, hport⟩ := hops₄ x hx
      obtain ⟨port, hsettled, -⟩ := hquiet.ports kv (hdone kv hkv)
      rw [hresolved.publicPort (hdone kv hkv) hsettled] at hwanted
      obtain ⟨p, hp, hheld⟩ := hquiet.listen kv hkv wanted hwanted
      rw [hport p hp, howner]
      exact hheld

theorem mem_unpreserved_owner {runId name : String}
    {portMap listenPortMap : BTreeMap (Option Port)}
    {preserved : BTreeMap ExistingServiceSnapshot} {x : Port × Owner}
    (h : x ∈ unpreservedPorts runId portMap listenPortMap preserved name) :
    x.2 = .service runId name ∨ x.2 = .captureBackend runId name := by
  simp only [unpreservedPorts, List.mem_append] at h
  rcases h with (h | h) | h
  · split at h
    · obtain ⟨p, -, rfl⟩ := List.mem_map.mp h
      exact Or.inr rfl
    · exact nomatch h
  · split at h
    · obtain ⟨p, -, rfl⟩ := List.mem_map.mp h
      exact Or.inr rfl
    · exact nomatch h
  · split at h
    · obtain ⟨p, -, rfl⟩ := List.mem_map.mp h
      exact Or.inl rfl
    · exact nomatch h

/-- The settled ports of the plan, as a map. -/
theorem settledPorts_get {kv : String × ServiceConfig} (hkv : kv ∈ build.plan.services.toList) :
    ((build.plan.services.map (fun name service =>
      (settledPort existing reusePorts name service).join))[kv.1]?).getD none
      = (settledPort existing reusePorts kv.1 kv.2).join := by
  rw [Std.ExtTreeMap.getElem?_map, Std.ExtTreeMap.mem_toList_iff_getElem?_eq_some.mp hkv]
  rfl

/-- What is released after the globals failed: what is settled, and the ports that
    were free. -/
theorem mem_releasedAfterGlobals {services : BTreeMap ServiceConfig}
    (hservices : build.plan.services = services) {portMap : BTreeMap (Option Port)}
    {S : Holding Port Owner}
    (hresolved : Resolved build.runId services existing reusePorts portMap S V)
    (x : Port × Owner) :
    x ∈ releasedAfterGlobals build existing reusePorts portMap
      ↔ x ∈ settledReleases build existing reusePorts
        ∨ ∃ kv ∈ services.toList, settledPort existing reusePorts kv.1 kv.2 = none
          ∧ portMap[kv.1]? = some (some x.1) ∧ x.2 = .service build.runId kv.1 := by
  subst hservices
  -- one service
  have hone : ∀ kv ∈ build.plan.services.toList,
      (x ∈ unpreservedPorts build.runId portMap ∅ (if reusePorts then existing else ∅) kv.1
        ↔ x ∈ unpreservedPorts build.runId
            (build.plan.services.map (fun name service =>
              (settledPort existing reusePorts name service).join)) ∅
            (if reusePorts then existing else ∅) kv.1
          ∨ settledPort existing reusePorts kv.1 kv.2 = none
            ∧ portMap[kv.1]? = some (some x.1) ∧ x.2 = .service build.runId kv.1) := by
    intro kv hkv
    cases hsettled : settledPort existing reusePorts kv.1 kv.2 with
    | some port =>
        simp only [unpreservedPorts, settledPorts_get hkv,
          hresolved.publicPort hkv hsettled, reduceCtorEq, false_and, or_false]
    | none =>
        obtain ⟨p, hget, -, -⟩ := hresolved.fresh kv hkv hsettled
        have hpreserved : ((if reusePorts then existing else ∅ : BTreeMap _)[kv.1]?).bind (·.port)
            = none := by
          rw [settledPort, port_of_not_settled hsettled] at hsettled
          cases reusePorts with
          | false => simp
          | true => simpa using hsettled
        obtain ⟨port, owner⟩ := x
        simp only [unpreservedPorts, settledPorts_get hkv, hsettled, hget, hpreserved]
        simp [eq_comm, and_comm]
  have hkeys : build.plan.services.keys = build.plan.services.toList.map (·.1) :=
    Std.ExtTreeMap.map_fst_toList_eq_keys.symm
  simp only [settledReleases, releasedAfterGlobals, hkeys, List.mem_flatMap, List.mem_map]
  constructor
  · rintro ⟨_, ⟨kv, hkv, rfl⟩, hx⟩
    rcases (hone kv hkv).mp hx with hx | hx
    · exact Or.inl ⟨kv.1, ⟨kv, hkv, rfl⟩, hx⟩
    · exact Or.inr ⟨kv, hkv, hx⟩
  · rintro (⟨_, ⟨kv, hkv, rfl⟩, hx⟩ | ⟨kv, hkv, hx⟩)
    · exact ⟨kv.1, ⟨kv, hkv, rfl⟩, (hone kv hkv).mpr (Or.inl hx)⟩
    · exact ⟨kv.1, ⟨kv, hkv, rfl⟩, (hone kv hkv).mpr (Or.inr hx)⟩

theorem mem_settledReservations (x : Port × Owner) :
    x ∈ settledReservations build existing reusePorts
      ↔ ∃ kv ∈ build.plan.services.toList,
        settledPort existing reusePorts kv.1 kv.2 = some (some x.1)
          ∧ x.2 = .service build.runId kv.1 := by
  rw [settledReservations, List.mem_filterMap]
  refine exists_congr fun kv => and_congr_right fun _ => ?_
  obtain ⟨port, owner⟩ := x
  cases hsettled : settledPort existing reusePorts kv.1 kv.2 with
  | none => simp
  | some settled =>
      cases settled with
      | none => simp
      | some p => simp [eq_comm]

/-- **AFTER THE GLOBALS FAILED** the releases restore the registry exactly when
    they undo what was taken and nothing else. -/
theorem restored_iff_undone (hspares : SparesPlan build dropped)
    {portMap : BTreeMap (Option Port)} {V₁ G : Holding Port Owner} {ops : List (Port × Owner)}
    (hresolved : Resolved build.runId build.plan.services existing reusePorts portMap
      (afterRequests (releaseAll V dropped) (syncRequests outside)) V₁)
    (htakes : Takes V₁ ops G) (hforeign : ∀ x ∈ ops, ¬ StackOwner x.2) :
    Restored StackOwner dropped V
        (releaseAll G (releasedAfterGlobals build existing reusePorts portMap))
      ↔ Undone outside build existing reusePorts V (releaseAll V dropped) := by
  have hsync := takes_taken (syncRequests outside) (releaseAll V dropped)
  obtain ⟨ops₂, htakes₂, hops₂⟩ := hresolved.takes
  have hreleased := mem_releasedAfterGlobals rfl hresolved
  -- a free port is not held at the start
  have hfresh : ∀ (x : Port × Owner) (kv : String × ServiceConfig),
      kv ∈ build.plan.services.toList → settledPort existing reusePorts kv.1 kv.2 = none →
      portMap[kv.1]? = some (some x.1) →
        afterRequests (releaseAll V dropped) (syncRequests outside) x.1 = none := by
    intro x kv hkv hnone hget
    obtain ⟨p, hp, hfree, -⟩ := hresolved.fresh kv hkv hnone
    rw [hget] at hp
    rw [Option.some.inj (Option.some.inj hp)]
    exact hfree
  rw [restored_iff ((hsync.trans htakes₂).trans htakes)]
  simp only [List.mem_append]
  constructor
  · rintro ⟨hops, hrel⟩
    refine ⟨fun x hx ho => ?_, fun x hx => ?_, fun x hx hV => ?_⟩
    · refine (hops x (Or.inl (Or.inl hx)) ho).imp_right fun hmem => ?_
      refine ((hreleased x).mp hmem).resolve_right ?_
      rintro ⟨kv, hkv, hnone, hget, -⟩
      have hfree := hfresh x kv hkv hnone hget
      rw [(hsync.took x hx).2] at hfree
      exact nomatch hfree
    · obtain ⟨kv, hkv, hport, howner⟩ := (mem_settledReservations x).mp hx
      have hV₁ := (hresolved.settled kv hkv _ hport).2 x.1 rfl
      rw [← howner] at hV₁
      rcases (hsync.trans htakes₂).only _ _ hV₁ with hW | hmem
      · exact Or.inl ((releaseAll_iff _ _ _ _).mp hW).1
      · have ho : StackOwner x.2 := howner ▸ trivial
        refine (hops x (Or.inl (List.mem_append.mp hmem)) ho).imp_right fun hmem => ?_
        refine ((hreleased x).mp hmem).resolve_right ?_
        rintro ⟨kv', hkv', hnone, -, howner'⟩
        rw [howner] at howner'
        have hname : kv.1 = kv'.1 := (Owner.service.inj howner').2
        have hsame := (Std.ExtTreeMap.mem_toList_iff_getElem?_eq_some.mp hkv).symm.trans
          ((congrArg (build.plan.services[·]?) hname).trans
            (Std.ExtTreeMap.mem_toList_iff_getElem?_eq_some.mp hkv'))
        rw [← hname, ← Option.some.inj hsame, hport] at hnone
        exact nomatch hnone
    · have hmem := (hreleased x).mpr (Or.inl hx)
      obtain ⟨name, hname, hx⟩ := List.mem_flatMap.mp hx
      have howner := mem_unpreserved_owner hx
      have ho : StackOwner x.2 := by rcases howner with h | h <;> rw [h] <;> trivial
      exact hrel x hmem ho (hspares.held (Std.ExtTreeMap.mem_keys.mp hname) howner hV)
  · intro hundone
    refine ⟨fun x hx ho => ?_, fun x hx ho hW => ?_⟩
    · rcases hx with (hx | hx) | hx
      · exact (hundone.recorded x hx ho).imp_right fun h => (hreleased x).mpr (Or.inl h)
      · obtain ⟨name, hname, hget, howner⟩ := hops₂ x hx
        obtain ⟨service, hservice⟩ := Option.isSome_iff_exists.mp
          (Std.ExtTreeMap.mem_iff_isSome_getElem?.mp hname)
        have hkv : (name, service) ∈ build.plan.services.toList :=
          Std.ExtTreeMap.mem_toList_iff_getElem?_eq_some.mpr hservice
        cases hsettled : settledPort existing reusePorts name service with
        | none => exact Or.inr ((hreleased x).mpr (Or.inr ⟨_, hkv, hsettled, hget, howner⟩))
        | some port =>
            have hsame := (hresolved.settled _ hkv port hsettled).1
            rw [hget] at hsame
            rw [← Option.some.inj hsame] at hsettled
            exact (hundone.ports x ((mem_settledReservations x).mpr
              ⟨_, hkv, hsettled, howner⟩)).imp_right fun h => (hreleased x).mpr (Or.inl h)
      · exact absurd ho (hforeign x hx)
    · rcases (hreleased x).mp hx with hx | ⟨kv, hkv, hnone, hget, -⟩
      · exact hundone.released x hx ((releaseAll_iff _ _ _ _).mp hW).1
      · have hfree := hfresh x kv hkv hnone hget
        rw [hsync.kept _ _ hW] at hfree
        exact nomatch hfree

/-- **WHAT A BUILD LEAVES** is what was there exactly when its stage's condition
    holds. -/
theorem ends_iff (hspares : SparesPlan build dropped) {stage : Option Stage}
    (h : Ends outside build existing reusePorts requests (releaseAll V dropped) stage V') :
    Restored StackOwner dropped V V'
      ↔ Undisturbed outside build existing reusePorts requests V (releaseAll V dropped)
          (stage.getD .create) := by
  cases h with
  | sync => exact restored_iff_kept (takes_taken _ _)
  | ports served => exact restored_iff_kept (takes_taken _ _)
  | globals resolved takes foreign => exact restored_iff_undone hspares resolved takes foreign
  | listen name resolved takes foreign listening =>
      exact restored_iff_quiet hspares (fun _ h => (List.takeWhile_prefix _).subset h) resolved takes
        foreign listening
  | done resolved takes foreign listening =>
      exact restored_iff_quiet hspares (fun _ h => h) resolved takes foreign listening

theorem Ends.stage_ne_layout {W : Holding Port Owner} {stage : Option Stage}
    (h : Ends outside build existing reusePorts requests W stage V') :
    stage.getD .create ≠ .layout := by
  cases h with
  | sync => exact Stage.noConfusion
  | ports => exact Stage.noConfusion
  | globals => exact Stage.noConfusion
  | listen => exact Stage.noConfusion
  | done => exact Stage.noConfusion

/-- A second sync of the same manifests takes nothing. -/
theorem Ends.of_synced {W : Holding Port Owner} {stage : Option Stage}
    (hserved : allServed W (syncRequests outside) = true)
    (h : Ends outside build existing reusePorts requests
      (afterRequests W (syncRequests outside)) stage V') :
    Ends outside build existing reusePorts requests W stage V' := by
  obtain ⟨hagain, hsame⟩ := served_of_held (held_of_allServed hserved)
  cases h with
  | sync =>
      rw [hsame]
      exact .sync
  | ports served =>
      have hfirst := afterRequests_append (syncRequests outside) requests W
      have hsecond := afterRequests_append (syncRequests outside) requests
        (afterRequests W (syncRequests outside))
      rw [hserved, if_pos rfl] at hfirst
      rw [hagain, if_pos rfl, hsame, ← hfirst] at hsecond
      rw [hsecond]
      exact .ports hserved
  | globals resolved takes foreign =>
      rw [hsame] at resolved
      exact .globals resolved takes foreign
  | listen name resolved takes foreign listening =>
      rw [hsame] at resolved
      exact .listen name resolved takes foreign listening
  | done resolved takes foreign listening =>
      rw [hsame] at resolved
      exact .done resolved takes foreign listening

end Conditions

end Ends

/-! ## The two commands -/

/-- A command that builds launch resources. -/
inductive Call where
  | newRun | refresh
  deriving DecidableEq, Repr

/-- `up` of a new run, or `refresh_run`, until `launch_services`. -/
def perform (outside : Outside) (build : Build) (store : Store) :
    Call → Except Failure LaunchResources × Store
  | .newRun => upNewRun outside build store
  | .refresh => refreshRun outside build store

/-- What removing the services the plan has dropped releases. -/
def droppedPorts (build : Build) (store : Store) : Call → List (Port × Owner)
  | .newRun => []
  | .refresh =>
      match store.runs[build.runId]? with
      | none => []
      | some run => (removedServices run build.plan).flatMap
          (removedPorts build.runId (existingServices run))

/-- The registry holds the stacks' reservations it held, but for the dropped
    services', and the snapshots of the runs that were there are unchanged. -/
structure Atomic (outside : Outside) (build : Build) (store store' : Store) (call : Call) :
    Prop where
  ports : Restored StackOwner (droppedPorts build store call)
    (holding outside.host store.ports.registry) (holding outside.host store'.ports.registry)
  snapshots : ∀ runId ∈ store.runs, store'.snapshots[runId]? = store.snapshots[runId]?

/-- The snapshot that a new run writes is no other run's. -/
def SnapshotKept (outside : Outside) (build : Build) (store : Store) (stage : Stage) : Prop :=
  stage = .layout ∨ build.runId ∉ store.runs
    ∨ ∃ raw, outside.config = .ok raw ∧ store.snapshots[build.runId]? = some raw

/-- The condition on the store before the command, at each stage it can fail at. -/
def Harmless (outside : Outside) (build : Build) (store : Store) (stage : Stage) : Call → Prop
  | .newRun =>
      Undisturbed outside build ∅ false [] (holding outside.host store.ports.registry)
          (holding outside.host store.ports.registry) stage
        ∧ SnapshotKept outside build store stage
  | .refresh => ∀ run, store.runs[build.runId]? = some run →
      Undisturbed outside build (existingServices run) run.stoppedAt.isNone
        (build.plan.services.toList.filterMap (refreshRequest outside.host build.runId
          (existingServices run) run.stoppedAt.isNone))
        (holding outside.host store.ports.registry)
        (releaseAll (holding outside.host store.ports.registry)
          (droppedPorts build store .refresh)) stage

section Commands

variable {outside : Outside} {build : Build} {store : Store}

theorem sparesPlan_nil : SparesPlan build [] := fun _ hx => nomatch hx

theorem mem_removedPorts_owner {runId name : String}
    {existing : BTreeMap ExistingServiceSnapshot} {x : Port × Owner}
    (h : x ∈ removedPorts runId existing name) :
    x.2 = .service runId name ∨ x.2 = .captureBackend runId name := by
  simp only [removedPorts, List.mem_append] at h
  rcases h with h | h
  · split at h
    · exact nomatch h
    · obtain ⟨p, -, rfl⟩ := List.mem_map.mp h
      exact Or.inr rfl
  · obtain ⟨p, -, rfl⟩ := List.mem_map.mp h
    exact Or.inl rfl

/-- The dropped services are not in the plan. -/
theorem sparesPlan_removed (run : RunRecord) :
    SparesPlan build ((removedServices run build.plan).flatMap
      (removedPorts build.runId (existingServices run))) := by
  intro x hx name hname
  obtain ⟨gone, hgone, hx⟩ := List.mem_flatMap.mp hx
  have hne : name ≠ gone := by
    rintro rfl
    exact ((mem_removedServices run build.plan name).mp hgone).2 hname
  rcases mem_removedPorts_owner hx with h | h
  · exact ⟨fun heq => hne (Owner.service.inj (heq.symm.trans h)).2,
      fun heq => Owner.noConfusion (heq.symm.trans h)⟩
  · exact ⟨fun heq => Owner.noConfusion (heq.symm.trans h),
      fun heq => hne (Owner.captureBackend.inj (heq.symm.trans h)).2⟩

theorem snapshots_iff {raw : String} (hconfig : outside.config = .ok raw) {stage : Stage}
    (hstage : stage ≠ .layout) :
    (∀ runId ∈ store.runs,
        (store.snapshots.insert build.runId raw)[runId]? = store.snapshots[runId]?)
      ↔ SnapshotKept outside build store stage := by
  constructor
  · intro h
    by_cases hin : build.runId ∈ store.runs
    · have hsame := h build.runId hin
      rw [Std.ExtTreeMap.getElem?_insert_self] at hsame
      exact Or.inr (Or.inr ⟨raw, hconfig, hsame.symm⟩)
    · exact Or.inr (Or.inl hin)
  · rintro (h | h | ⟨raw', hraw, hget⟩) runId hrunId
    · exact absurd h hstage
    · have hne : build.runId ≠ runId := fun heq => h (heq ▸ hrunId)
      simp [Std.ExtTreeMap.getElem?_insert, hne]
    · rw [hconfig] at hraw
      rw [Std.ExtTreeMap.getElem?_insert, Except.ok.inj hraw]
      split
      · next heq => rw [← Std.LawfulEqCmp.eq_of_compare heq, hget]
      · rfl

/-- `up` of a new run. -/
theorem newRun_iff {failure : Failure} (h : (upNewRun outside build store).1 = .error failure) :
    Atomic outside build store (upNewRun outside build store).2 .newRun
      ↔ Harmless outside build store failure.stage .newRun := by
  have hlayout : ∀ err : String, failure = ⟨.layout, err⟩ →
      (Atomic outside build store store .newRun
        ↔ Harmless outside build store failure.stage .newRun) := by
    rintro err rfl
    exact ⟨fun _ => ⟨trivial, Or.inl rfl⟩, fun _ =>
      ⟨fun _ _ _ => ⟨id, fun h => Or.inl h⟩, fun _ _ => rfl⟩⟩
  simp only [upNewRun, initializeNewRunLayout] at h ⊢
  cases hdirectories : outside.directories with
  | error err =>
      simp only [hdirectories] at h ⊢
      exact hlayout err (Except.error.inj h).symm
  | ok _ =>
  cases hconfig : outside.config with
  | error err =>
      simp only [hdirectories, hconfig] at h ⊢
      exact hlayout err (Except.error.inj h).symm
  | ok raw =>
  cases hwritten : outside.written with
  | error err =>
      simp only [hdirectories, hconfig, hwritten] at h ⊢
      exact hlayout err (Except.error.inj h).symm
  | ok _ =>
  -- the snapshot is written, and the registry is synced
  have hatomic : ∀ (V' : Holding Port Owner) (stage : Option Stage) (store' : Store),
      Ends outside build ∅ false [] (holding outside.host store.ports.registry) stage V' →
      holding outside.host store'.ports.registry = V' →
      store'.snapshots = store.snapshots.insert build.runId raw →
      stage.getD .create ≠ .layout →
        (Atomic outside build store store' .newRun
          ↔ Harmless outside build store (stage.getD .create) .newRun) := by
    intro V' stage store' hends hports hsnapshots hstage
    have hrestored : Restored StackOwner [] (holding outside.host store.ports.registry) V' ↔ _ :=
      ends_iff sparesPlan_nil hends
    have hkept : (∀ runId ∈ store.runs, (store.snapshots.insert build.runId raw)[runId]? = _)
        ↔ SnapshotKept outside build store (stage.getD .create) := snapshots_iff hconfig hstage
    rw [← hsnapshots] at hkept
    rw [← hports] at hrestored
    exact ⟨fun ha => ⟨hrestored.mp ha.ports, hkept.mp ha.snapshots⟩,
      fun hh => ⟨hrestored.mpr hh.1, hkept.mpr hh.2⟩⟩
  simp only [hdirectories, hconfig, hwritten] at h ⊢
  obtain ⟨s₁, hafter, ⟨heq, hserved⟩ | ⟨err, heq, hserved⟩⟩ :=
    reserveEach_serves outside.host (recordedRuns outside.pathExists outside.manifests
      ++ recordedGlobals outside.pathExists outside.globalManifests) store.ports
  · simp only [syncPortReservationsFromDisk, heq] at h ⊢
    obtain ⟨s₂, ⟨resources, heq', hends⟩ | ⟨failed, heq', hends⟩⟩ :=
      buildNewLaunchResources_cases outside build s₁
    · simp only [heq', createRunRecord] at h ⊢
      rw [hafter] at hends
      by_cases hin : build.runId ∈ store.runs
      · simp only [hin, if_true] at h ⊢
        rw [← Except.error.inj h]
        exact hatomic _ none _ (hends.of_synced hserved) rfl rfl Stage.noConfusion
      · simp only [hin, if_false] at h
        exact nomatch h
    · simp only [heq'] at h ⊢
      rw [hafter] at hends
      rw [← Except.error.inj h]
      exact hatomic _ (some failed.stage) _ (hends.of_synced hserved) rfl rfl
        hends.stage_ne_layout
  · simp only [syncPortReservationsFromDisk, heq] at h ⊢
    rw [← Except.error.inj h]
    exact hatomic _ (some .sync) _ .sync hafter rfl Stage.noConfusion

/-- `refresh_run`: it writes no snapshot before it fails. -/
theorem refresh_iff {failure : Failure} (h : (refreshRun outside build store).1 = .error failure) :
    Atomic outside build store (refreshRun outside build store).2 .refresh
      ↔ Harmless outside build store failure.stage .refresh := by
  simp only [refreshRun] at h ⊢
  cases hrun : store.runs[build.runId]? with
  | none =>
      simp only [hrun] at h ⊢
      rw [← Except.error.inj h]
      exact ⟨fun _ run hget => (nomatch hrun.symm.trans hget),
        fun _ => ⟨fun _ _ _ => ⟨id, fun h => Or.inl h⟩, fun _ _ => rfl⟩⟩
  | some run =>
      have hdropped : droppedPorts build store .refresh
          = (removedServices run build.plan).flatMap
              (removedPorts build.runId (existingServices run)) := by
        simp only [droppedPorts, hrun]
      simp only [hrun] at h ⊢
      obtain ⟨released, hsub, hafter, hall⟩ := releaseRemoved_spec outside.host build.runId
        (existingServices run) (removedServices run build.plan) store.ports
      cases hremoved : releaseRemoved outside.host build.runId (existingServices run)
          (removedServices run build.plan) store.ports with
      | mk result s₁ =>
          rw [hremoved] at hafter hall
          cases result with
          | error err =>
              simp only [hremoved] at h ⊢
              rw [← Except.error.inj h]
              refine ⟨fun _ _ _ => trivial, fun _ => ⟨fun k o _ => ?_, fun _ _ => rfl⟩⟩
              rw [hafter, hdropped, releaseAll_iff]
              refine ⟨fun hk => hk.1, fun hk => ?_⟩
              by_cases hmem : (k, o) ∈ released
              · exact Or.inr (hsub _ hmem)
              · exact Or.inl ⟨hk, hmem⟩
          | ok _ =>
              have hW : holding outside.host s₁.registry
                  = releaseAll (holding outside.host store.ports.registry)
                      (droppedPorts build store .refresh) := by
                rw [hdropped, ← hall rfl]
                exact hafter
              simp only [hremoved] at h ⊢
              obtain ⟨s₂, ⟨resources, heq, hends⟩ | ⟨failed, heq, hends⟩⟩ :=
                buildRefreshLaunchResources_cases outside build (existingServices run)
                  run.stoppedAt.isNone s₁
              · simp only [heq] at h
                exact nomatch h
              · simp only [heq] at h ⊢
                rw [hW] at hends
                rw [← Except.error.inj h]
                have hrestored := ends_iff (hdropped ▸ sparesPlan_removed run) hends
                refine ⟨fun ha run' hget => ?_, fun hh => ⟨?_, fun _ _ => rfl⟩⟩
                · rw [← Option.some.inj (hrun.symm.trans hget)]
                  exact hrestored.mp ha.ports
                · exact hrestored.mpr (hh run hrun)

/-- **A FAILED BUILD IS ATOMIC** exactly when the condition of the stage it failed
    at holds of the store it began with. -/
theorem atomic_iff (call : Call) (outside : Outside) (build : Build) (store : Store)
    {failure : Failure} (h : (perform outside build store call).1 = .error failure) :
    Atomic outside build store (perform outside build store call).2 call
      ↔ Harmless outside build store failure.stage call := by
  cases call with
  | newRun => exact newRun_iff h
  | refresh => exact refresh_iff h

/-! ### A run id that is taken -/

/-- A daemon of process 7, on a host without manifests or globals. -/
def quietOutside : Outside where
  host := ⟨7, fun pid => decide (pid = 7), fun _ _ => true, rfl⟩
  pathExists := fun _ => true
  manifests := []
  globalManifests := []
  directories := .ok ()
  config := .ok "new"
  written := .ok ()
  globals := fun name => ⟨name, .ok (), none, false, .ok ()⟩
  now := "t1"

def webOnly : BTreeMap ServiceConfig :=
  (∅ : BTreeMap ServiceConfig).insert "web" (ServiceConfig.ofCmd "serve" [])

theorem topoSort_webOnly : topoSort webOnly = .ok ["web"] := by decide

/-- `up` of a stack with the service `web`, with the run id `dev-1`. -/
def webBuild : Build where
  runId := "dev-1"
  plan := ⟨"dev", webOnly, ["web"], (topoSort_depsFirst topoSort_webOnly).1,
    (topoSort_depsFirst topoSort_webOnly).2.1⟩
  globals := ∅
  projectDir := "/app"
  configDir := "/app"

/-- A daemon that has the run `dev-1` already. -/
def storeWithRun : Store where
  ports := ⟨∅, [40000]⟩
  runs := (∅ : BTreeMap RunRecord).insert "dev-1"
    (RunRecord.new "dev-1" "dev" "/app" "/app" ∅ "t0")
  snapshots := (∅ : BTreeMap String).insert "dev-1" "old"

theorem createFails :
    (perform quietOutside webBuild storeWithRun .newRun).1
      = .error ⟨.create, "run dev-1 already exists"⟩ := rfl

theorem atomic_iff_existing :
    Atomic quietOutside webBuild storeWithRun
        (perform quietOutside webBuild storeWithRun .newRun).2 .newRun
      ↔ Harmless quietOutside webBuild storeWithRun .create .newRun :=
  atomic_iff .newRun quietOutside webBuild storeWithRun createFails

/-- The error comes too late: the run's snapshot is overwritten and a port is
    reserved for its service. -/
theorem existing_run_disturbed :
    (perform quietOutside webBuild storeWithRun .newRun).1
        = .error ⟨.create, "run dev-1 already exists"⟩
      ∧ ¬ Atomic quietOutside webBuild storeWithRun
          (perform quietOutside webBuild storeWithRun .newRun).2 .newRun := by
  refine ⟨rfl, fun hatomic => ?_⟩
  have hsnapshot := hatomic.snapshots "dev-1" (by decide)
  revert hsnapshot
  decide

end Commands

end DevstackAtomicity
