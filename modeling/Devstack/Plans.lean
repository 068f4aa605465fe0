import Devstack.Lib.Closure
import Devstack.Validate

/-! # Stack plans — which maps can be sorted, and what a filtered plan keeps

    `src/config/plan.rs`, for the maps that `validate` lets through: every
    dependency names a service of the map.  Then `topo_sort` fails exactly on
    cycles, a dependency on oneself among them, and `filter_to` keeps the least
    set of services that has the requested ones and is closed under
    dependencies. -/

namespace DevstackPlans

open DevstackModel DevstackConfig DevstackKahn DevstackClosure DevstackValidate

/-- `dep` is listed among the dependencies of the service `name`. -/
def Needs (services : BTreeMap ServiceConfig) (name dep : String) : Prop :=
  ∃ service : ServiceConfig, services[name]? = some service ∧ dep ∈ service.deps

/-- Every dependency names a service of the map. -/
def DepsKnown (services : BTreeMap ServiceConfig) : Prop :=
  ∀ name dep, Needs services name dep → dep ∈ services

/-- The plans of a valid configuration are those of maps whose dependencies are known. -/
theorem depsKnown_of_valid {config : ConfigFile} (hvalid : validate config = .ok ())
    {stackName : String} {plan : StackPlan}
    (hplan : stackPlan config stackName = .ok plan) :
    DepsKnown plan.services := by
  rw [stackPlan] at hplan
  split at hplan
  · cases hplan
  · next stack hstack =>
      split at hplan
      · cases hplan
      · obtain rfl := Except.ok.inj hplan
        rintro name dep ⟨service, hget, hdep⟩
        have hservice := service_valid hvalid hstack hget
        simp only [validateStackService, andThen_ok, checkEach_ok] at hservice
        have hcheck := hservice.2.2 dep hdep
        split at hcheck
        · next hin => exact Std.ExtTreeMap.contains_iff_mem.mp hin
        · cases hcheck

/-! ## Sorting -/

section Sorting

variable {services : BTreeMap ServiceConfig}

theorem needs_iff (hdeps : DepsKnown services) {name dep : String} :
    Needs services name dep ↔ dep ∈ depsIn services name := by
  rw [mem_depsIn]
  constructor
  · rintro ⟨service, hget, hdep⟩
    exact ⟨service, hget, hdep, hdeps name dep ⟨service, hget, hdep⟩⟩
  · rintro ⟨service, hget, hdep, -⟩
    exact ⟨service, hget, hdep⟩

theorem acyclic_iff (hdeps : DepsKnown services) :
    Acyclic (depsIn services) ↔ ∀ name, ¬ Relation.TransGen (Needs services) name name := by
  have hsame : Needs services = fun name dep => dep ∈ depsIn services name := by
    funext name dep
    exact propext (needs_iff hdeps)
  rw [hsame]
  exact Iff.rfl

variable (services)

/-- The sort ends with an empty queue. -/
theorem topoSort_empties :
    (loop (dependentsOf (depGraph services)) services.size (kahnStart services)).queue = [] := by
  refine loop_empties (depEdges_edges services) services.size
    (sorted_start Std.ExtTreeMap.nodup_keys _ (fun _ hv => depGraph_degree services hv)) ?_
  rw [Std.ExtTreeMap.length_keys]
  exact Nat.le_add_left _ _

/-- The sort succeeds exactly if there is no cycle among the services. -/
theorem topoSort_ok_iff : (∃ order, topoSort services = .ok order) ↔ Acyclic (depsIn services) := by
  have hsorted := topoSort_sorted services
  have hpreds : ∀ name, depsIn services name ≠ [] → name ∈ services.keys := by
    intro name hne
    obtain ⟨dep, hdep⟩ := List.exists_mem_of_ne_nil _ hne
    obtain ⟨service, hget, -⟩ := mem_depsIn.mp hdep
    rw [Std.ExtTreeMap.mem_keys, Std.ExtTreeMap.mem_iff_isSome_getElem?, hget]
    rfl
  rw [← complete_iff_acyclic (depEdges_edges services) hpreds hsorted (topoSort_empties services)]
  constructor
  · rintro ⟨order, horder⟩ name hname
    have hin := topoSort_complete horder (Std.ExtTreeMap.mem_keys.mp hname)
    simp only [topoSort] at horder
    split at horder
    · cases horder
    · obtain rfl := Except.ok.inj horder
      exact hin
  · intro hall
    have hle := length_le hsorted
    rw [Std.ExtTreeMap.length_keys] at hle
    have hge := (List.subperm_of_subset Std.ExtTreeMap.nodup_keys hall).length_le
    rw [Std.ExtTreeMap.length_keys] at hge
    exact ⟨_, if_neg (by omega)⟩

variable {services}

/-- For every map whose dependencies name services of it: the sort comes to an end, with
    success exactly if no service depends on itself, and the order then has every service
    once and after its dependencies. -/
theorem topoSort_correct (hdeps : DepsKnown services) :
    (loop (dependentsOf (depGraph services)) services.size (kahnStart services)).queue = []
      ∧ ((∃ order, topoSort services = .ok order)
          ↔ ∀ name, ¬ Relation.TransGen (Needs services) name name)
      ∧ ∀ order, topoSort services = .ok order →
          order.Perm services.keys
            ∧ ∀ before name after, order = before ++ name :: after →
                ∀ dep, Needs services name dep → dep ∈ before := by
  refine ⟨topoSort_empties services, ?_, ?_⟩
  · rw [topoSort_ok_iff, acyclic_iff hdeps]
  · intro order horder
    obtain ⟨hfirst, hnodup, hmem⟩ := topoSort_depsFirst horder
    refine ⟨?_, ?_⟩
    · refine (List.perm_ext_iff_of_nodup hnodup Std.ExtTreeMap.nodup_keys).mpr ?_
      intro name
      rw [Std.ExtTreeMap.mem_keys]
      exact ⟨hmem name, topoSort_complete horder⟩
    · intro before name after heq dep hdep
      exact hfirst before name after heq dep ((needs_iff hdeps).mp hdep)

end Sorting

/-- The web server needs the API, which lists its database twice. -/
def shopServices : BTreeMap ServiceConfig :=
  (((∅ : BTreeMap ServiceConfig).insert "db" (.ofCmd "postgres" [])).insert "api"
    (.ofCmd "serve" ["db", "db"])).insert "web" (.ofCmd "vite" ["api"])

def shopConfig : ConfigFile where
  version := 1
  stackConfigs := (∅ : BTreeMap StackConfig).insert "dev" ⟨shopServices⟩
  defaultStack := none
  globals := none
  tasks := none
  env := ∅
  envFile := none

theorem validate_shop : validate shopConfig = .ok () := by decide

theorem topoSort_shop : topoSort shopServices = .ok ["db", "api", "web"] := by decide

def shopPlan : StackPlan where
  name := "dev"
  services := shopServices
  order := ["db", "api", "web"]
  depsFirst := (topoSort_depsFirst topoSort_shop).1
  nodup := (topoSort_depsFirst topoSort_shop).2.1

theorem stackPlan_shop : stackPlan shopConfig "dev" = .ok shopPlan := rfl

/-- The database that is listed twice comes first all the same. -/
theorem topoSort_correct_shop :
    DepsKnown shopServices
      ∧ (∀ name, ¬ Relation.TransGen (Needs shopServices) name name)
      ∧ ["db", "api", "web"].Perm shopServices.keys := by
  have hdeps : DepsKnown shopServices := depsKnown_of_valid validate_shop stackPlan_shop
  obtain ⟨-, hok, horder⟩ := topoSort_correct hdeps
  exact ⟨hdeps, hok.mp ⟨_, topoSort_shop⟩, (horder _ topoSort_shop).1⟩

/-! ## Filtering -/

section Filtering

/-- The dependencies that `filter_to` follows from a name. -/
def depsOf (services : BTreeMap ServiceConfig) (name : String) : List String :=
  (services[name]?.map (·.deps)).getD []

theorem mem_depsOf {services : BTreeMap ServiceConfig} {name dep : String} :
    dep ∈ depsOf services name ↔ Needs services name dep := by
  rw [depsOf, Needs]
  cases services[name]? with
  | none => simp
  | some service => simp

variable {plan : StackPlan}

/-- The steps that the search has left, from a set of names seen and a queue. -/
def stepsLeft (plan : StackPlan) (needed queue : List String) : Nat :=
  work (depsOf plan.services) plan.services.keys needed queue

theorem filterLoop_unknown {name : String} (h : name ∉ plan.services) (fuel : Nat)
    (needed queue : List String) :
    filterLoop plan (fuel + 1) needed (name :: queue)
      = .error s!"unknown service '{name}' in stack '{plan.name}'" := by
  rw [filterLoop, Std.ExtTreeMap.getElem?_eq_none h]

theorem filterLoop_seen {name : String} (h : name ∈ plan.services) {needed : List String}
    (hseen : name ∈ needed) (fuel : Nat) (queue : List String) :
    filterLoop plan (fuel + 1) needed (name :: queue) = filterLoop plan fuel needed queue := by
  rw [filterLoop, Std.ExtTreeMap.getElem?_eq_some_getElem h]
  exact if_pos hseen

theorem filterLoop_new {name : String} (h : name ∈ plan.services) {needed : List String}
    (hnew : name ∉ needed) (fuel : Nat) (queue : List String) :
    filterLoop plan (fuel + 1) needed (name :: queue)
      = filterLoop plan fuel (needed ++ [name]) (queue ++ depsOf plan.services name) := by
  rw [filterLoop, depsOf, Std.ExtTreeMap.getElem?_eq_some_getElem h]
  exact if_neg hnew

theorem stepsLeft_new {name : String} (h : name ∈ plan.services) {needed : List String}
    (hnew : name ∉ needed) (queue : List String) :
    stepsLeft plan (needed ++ [name]) (queue ++ depsOf plan.services name)
      < stepsLeft plan needed (name :: queue) :=
  work_take Std.ExtTreeMap.nodup_keys (Std.ExtTreeMap.mem_keys.mpr h) hnew

/-- The search ends within its steps: more fuel changes nothing. -/
theorem filterLoop_add {fuel : Nat} {needed queue : List String}
    (hfuel : stepsLeft plan needed queue < fuel) (more : Nat) :
    filterLoop plan (fuel + more) needed queue = filterLoop plan fuel needed queue := by
  induction fuel generalizing needed queue with
  | zero => exact absurd hfuel (Nat.not_lt_zero _)
  | succ fuel ih =>
      rw [Nat.succ_add_eq_add_succ, Nat.add_succ]
      cases queue with
      | nil => rfl
      | cons name queue =>
          by_cases hname : name ∈ plan.services
          · by_cases hseen : name ∈ needed
            · have hless : stepsLeft plan needed queue < stepsLeft plan needed (name :: queue) :=
                work_skip
              rw [filterLoop_seen hname hseen, filterLoop_seen hname hseen]
              exact ih (by omega)
            · have hless := stepsLeft_new hname hseen queue
              rw [filterLoop_new hname hseen, filterLoop_new hname hseen]
              exact ih (by omega)
          · rw [filterLoop_unknown hname, filterLoop_unknown hname]

/-- A name in the queue that the plan has not ends the search with an error. -/
theorem filterLoop_error {fuel : Nat} {needed queue : List String}
    (hfuel : stepsLeft plan needed queue < fuel) {unknown : String} (hin : unknown ∈ queue)
    (hunknown : unknown ∉ plan.services) : ∃ err, filterLoop plan fuel needed queue = .error err := by
  induction fuel generalizing needed queue with
  | zero => exact absurd hfuel (Nat.not_lt_zero _)
  | succ fuel ih =>
      cases queue with
      | nil => exact nomatch hin
      | cons name queue =>
          by_cases hname : name ∈ plan.services
          · have hin : unknown ∈ queue := by
              refine (List.mem_cons.mp hin).resolve_left ?_
              intro heq
              exact hunknown (heq ▸ hname)
            by_cases hseen : name ∈ needed
            · have hless : stepsLeft plan needed queue < stepsLeft plan needed (name :: queue) :=
                work_skip
              rw [filterLoop_seen hname hseen]
              exact ih (by omega) hin
            · have hless := stepsLeft_new hname hseen queue
              rw [filterLoop_new hname hseen]
              exact ih (by omega) (List.mem_append_left _ hin)
          · exact ⟨_, filterLoop_unknown hname fuel needed queue⟩

/-- Known names are followed to the end, and the search finds what it has to. -/
theorem filterLoop_ok (hdeps : DepsKnown plan.services) {targets : List String} {fuel : Nat}
    {needed queue : List String} (hfuel : stepsLeft plan needed queue < fuel)
    (h : Following (depsOf plan.services) targets needed queue)
    (hneeded : ∀ name ∈ needed, name ∈ plan.services)
    (hqueue : ∀ name ∈ queue, name ∈ plan.services) :
    ∃ found, filterLoop plan fuel needed queue = .ok found
      ∧ Following (depsOf plan.services) targets found []
      ∧ ∀ name ∈ found, name ∈ plan.services := by
  induction fuel generalizing needed queue with
  | zero => exact absurd hfuel (Nat.not_lt_zero _)
  | succ fuel ih =>
      cases queue with
      | nil => exact ⟨needed, rfl, h, hneeded⟩
      | cons name queue =>
          obtain ⟨hname, hqueue⟩ := List.forall_mem_cons.mp hqueue
          by_cases hseen : name ∈ needed
          · have hless : stepsLeft plan needed queue < stepsLeft plan needed (name :: queue) :=
              work_skip
            rw [filterLoop_seen hname hseen]
            exact ih (by omega) (following_skip h hseen) hneeded hqueue
          · have hless := stepsLeft_new hname hseen queue
            rw [filterLoop_new hname hseen]
            refine ih (by omega) (following_take h) ?_ ?_
            · intro other hother
              rcases List.mem_append.mp hother with hother | hother
              · exact hneeded other hother
              · rw [List.mem_singleton.mp hother]
                exact hname
            · intro other hother
              rcases List.mem_append.mp hother with hother | hother
              · exact hqueue other hother
              · exact hdeps name other (mem_depsOf.mp hother)

/-- The fuel of `filter_to` is one more than its search takes at most. -/
theorem stepsLeft_start (targets : List String) :
    stepsLeft plan [] targets < filterFuel plan targets := by
  have hcost : plan.services.keys.map (fun name => (depsOf plan.services name).length)
      = plan.services.toList.map (fun kv => kv.2.deps.length) := by
    rw [← Std.ExtTreeMap.map_fst_toList_eq_keys, List.map_map]
    refine List.map_congr_left ?_
    intro kv hkv
    have hget : plan.services[kv.1]? = some kv.2 :=
      Std.ExtTreeMap.mem_toList_iff_getElem?_eq_some.mp hkv
    rw [Function.comp_apply, depsOf, hget]
    rfl
  have hall : plan.services.keys.filter (· ∉ ([] : List String)) = plan.services.keys :=
    List.filter_eq_self.mpr (fun _ _ => by simp)
  rw [stepsLeft, work, filterFuel, hall, hcost]
  omega

theorem mem_filter_services {needed : List String} {name : String} :
    name ∈ plan.services.filter (fun name _ => name ∈ needed)
      ↔ name ∈ plan.services ∧ name ∈ needed := by
  rw [Std.ExtTreeMap.mem_filter]
  simp

theorem getElem?_filter_services {needed : List String} {name : String} (h : name ∈ needed) :
    (plan.services.filter (fun name _ => name ∈ needed))[name]? = plan.services[name]? := by
  rw [Std.ExtTreeMap.getElem?_filter']
  cases plan.services[name]? with
  | none => rfl
  | some service => simp [Option.filter, h]

/-- For every plan of a valid configuration and all requested names: the search comes to an
    end; it fails exactly if the plan has not all of the names; and otherwise the filtered
    plan has the least set of services with the requested ones and closed under
    dependencies, each as it was, in the order they had, dependencies first. -/
theorem filterTo_least {config : ConfigFile} (hvalid : validate config = .ok ())
    {stackName : String} (hplan : stackPlan config stackName = .ok plan) (targets : List String) :
    (∀ more, filterLoop plan (filterFuel plan targets + more) [] targets
        = filterLoop plan (filterFuel plan targets) [] targets)
      ∧ ((∃ err, filterTo plan targets = .error err) ↔ ∃ name ∈ targets, name ∉ plan.services)
      ∧ ∀ kept, filterTo plan targets = .ok kept →
          Closed (depsOf plan.services) targets (· ∈ kept.services)
            ∧ (∀ S, Closed (depsOf plan.services) targets S → ∀ name ∈ kept.services, S name)
            ∧ (∀ name ∈ kept.services, kept.services[name]? = plan.services[name]?)
            ∧ kept.order = plan.order.filter (· ∈ kept.services)
            ∧ (∀ name, name ∈ kept.order ↔ name ∈ kept.services)
            ∧ ∀ before name after, kept.order = before ++ name :: after →
                ∀ dep, Needs kept.services name dep → dep ∈ before := by
  have hdeps := depsKnown_of_valid hvalid hplan
  have hfuel : stepsLeft plan [] targets < filterFuel plan targets := stepsLeft_start targets
  have hfound : (∀ name ∈ targets, name ∈ plan.services) →
      ∃ found, filterLoop plan (filterFuel plan targets) [] targets = .ok found
        ∧ Following (depsOf plan.services) targets found []
        ∧ ∀ name ∈ found, name ∈ plan.services :=
    filterLoop_ok hdeps hfuel following_start (fun _ hname => by cases hname)
  refine ⟨filterLoop_add hfuel, ?_, ?_⟩
  · constructor
    · rintro ⟨err, herr⟩
      by_contra hknown
      push Not at hknown
      obtain ⟨found, hloop, -⟩ := hfound hknown
      rw [filterTo, hloop] at herr
      cases herr
    · rintro ⟨name, hname, hunknown⟩
      obtain ⟨err, herr⟩ := filterLoop_error hfuel hname hunknown
      refine ⟨err, ?_⟩
      rw [filterTo, herr]
  · intro kept hkept
    have hknown : ∀ name ∈ targets, name ∈ plan.services := by
      by_contra hleft
      push Not at hleft
      obtain ⟨name, hname, hunknown⟩ := hleft
      obtain ⟨err, herr⟩ := filterLoop_error hfuel hname hunknown
      rw [filterTo, herr] at hkept
      cases hkept
    obtain ⟨found, hloop, hfollow, hin⟩ := hfound hknown
    obtain ⟨hclosed, hleast⟩ := following_done hfollow
    rw [filterTo, hloop] at hkept
    obtain rfl := Except.ok.inj hkept
    dsimp only
    have hmem : ∀ name, name ∈ plan.services.filter (fun name _ => name ∈ found) ↔ name ∈ found := by
      intro name
      rw [mem_filter_services]
      exact ⟨And.right, fun hname => ⟨hin name hname, hname⟩⟩
    have hsame : ∀ name ∈ found, (plan.services.filter (fun name _ => name ∈ found))[name]?
        = plan.services[name]? := fun name hname => getElem?_filter_services hname
    simp only [hmem]
    refine ⟨hclosed, hleast, hsame, trivial, ?_, ?_⟩
    · intro name
      rw [List.mem_filter]
      have horder : name ∈ found → name ∈ plan.order := fun hname =>
        stackPlan_complete hplan (hin name hname)
      simpa using horder
    · have hkept : DepsKnown (plan.services.filter (fun name _ => name ∈ found)) := by
        rintro name dep ⟨service, hget, hdep⟩
        have hname : name ∈ found := by
          refine (hmem name).mp (Std.ExtTreeMap.mem_iff_isSome_getElem?.mpr ?_)
          rw [hget]
          rfl
        rw [hsame name hname] at hget
        exact (hmem dep).mpr (hclosed.succs name hname dep (mem_depsOf.mpr ⟨service, hget, hdep⟩))
      intro before name after heq dep hneeds
      exact depsFirst_filter plan.depsFirst found before name after heq dep
        ((needs_iff hkept).mp hneeds)

end Filtering

/-- The API alone takes its database along and leaves the web server out; a service that
    no one has heard of is an error. -/
theorem filterTo_least_shop :
    (∃ kept, filterTo shopPlan ["api"] = .ok kept
        ∧ "db" ∈ kept.services ∧ "web" ∉ kept.services)
      ∧ ∃ err, filterTo shopPlan ["api", "cache"] = .error err := by
  have hcache : "cache" ∉ shopPlan.services := by decide
  have hunknown := (filterTo_least validate_shop stackPlan_shop ["api", "cache"]).2.1
  refine ⟨?_, hunknown.mpr ⟨"cache", by decide, hcache⟩⟩
  obtain ⟨-, hknown, hleast⟩ := filterTo_least validate_shop stackPlan_shop ["api"]
  cases hkept : filterTo shopPlan ["api"] with
  | error err =>
      obtain ⟨name, hname, hout⟩ := hknown.mp ⟨err, hkept⟩
      rw [List.mem_singleton.mp hname] at hout
      exact absurd (by decide : "api" ∈ shopPlan.services) hout
  | ok kept =>
      obtain ⟨hclosed, hmin, -⟩ := hleast kept hkept
      have hapi : "api" ∈ kept.services := hclosed.targets "api" (by decide)
      refine ⟨kept, rfl, hclosed.succs "api" hapi "db" (by decide), ?_⟩
      intro hweb
      have hpair : Closed (depsOf shopPlan.services) ["api"] (· ∈ ["api", "db"]) := by
        refine ⟨by decide, ?_⟩
        intro name hname
        rcases List.mem_pair.mp hname with rfl | rfl <;> decide
      exact absurd (hmin _ hpair "web" hweb) (by decide)

end DevstackPlans
