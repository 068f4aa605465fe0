import Devstack.Lib.Kahn
import Devstack.Model
import Mathlib.Data.List.Perm.Subperm
import Mathlib.Algebra.GroupWithZero.Nat

/-! # Configuration — services, stack plans and their order

    The types of `src/config/model.rs` and the plans of `src/config/plan.rs`.
    `topo_sort` is Kahn's algorithm on the maps it builds; a `StackPlan` carries
    what its order is for: every service stands after the services of the plan
    it depends on. -/

namespace DevstackConfig

open DevstackModel DevstackKahn

-- ── config/model.rs ───────────────────────────────────────────────────────────

inductive PortConfig where
  | none (value : String)
  | fixed (port : Port)
  deriving DecidableEq, Repr

def PortConfig.isNone : PortConfig → Bool
  | .none value => value == "none"
  | .fixed _ => false

structure ReadinessHttp where
  path : String
  expectStatus : Option (List UInt16)
  deriving DecidableEq, Repr

/-- `ReadinessConfig`; `tcp` and `exit` are empty tables. -/
structure ReadinessConfig where
  tcp : Option Unit
  http : Option ReadinessHttp
  logRegex : Option String
  cmd : Option String
  delayMs : Option Nat
  exit : Option Unit
  timeoutMs : Option Nat
  deriving DecidableEq, Repr

structure TaskDefinition where
  cmd : String
  cwd : Option String
  watch : List String
  env : BTreeMap String
  envFile : Option String
  deriving DecidableEq

inductive TaskConfig where
  | command (cmd : String)
  | structured (definition : TaskDefinition)
  deriving DecidableEq

structure ServiceConfig where
  cmd : String
  deps : List String
  scheme : Option String
  portEnv : Option String
  port : Option PortConfig
  captureApi : Option Bool
  captureApiBodyLimit : Option Nat
  captureApiIgnore : List String
  readiness : Option ReadinessConfig
  envFile : Option String
  env : BTreeMap String
  cwd : Option String
  watch : List String
  ignore : List String
  autoRestart : Bool
  init : Option (List String)
  postInit : Option (List String)
  tasks : Option (BTreeMap TaskConfig)
  deriving DecidableEq

/-- A service with only a command, as the configuration file's defaults leave it. -/
def ServiceConfig.ofCmd (cmd : String) (deps : List String) : ServiceConfig where
  cmd := cmd
  deps := deps
  scheme := none
  portEnv := none
  port := none
  captureApi := none
  captureApiBodyLimit := none
  captureApiIgnore := []
  readiness := none
  envFile := none
  env := ∅
  cwd := none
  watch := []
  ignore := []
  autoRestart := false
  init := none
  postInit := none
  tasks := none

-- ── topo_sort ─────────────────────────────────────────────────────────────────

/-- `in_degree` and `graph`. -/
structure DepGraph where
  inDegree : BTreeMap Nat
  graph : BTreeMap (List String)

/-- The body of the loop over one service's deps. -/
def addDep (g : DepGraph) (edge : String × String) : DepGraph :=
  match g.graph[edge.2]? with
  | some depEdges =>
      { graph := g.graph.insert edge.2 (depEdges ++ [edge.1])
        inDegree := g.inDegree.modify edge.1 (· + 1) }
  | none => g

/-- Every (service, dependency) pair, in the order of the two loops. -/
def depEdges (services : BTreeMap ServiceConfig) : List (String × String) :=
  services.toList.flatMap (fun kv => kv.2.deps.map (fun dep => (kv.1, dep)))

def depGraph (services : BTreeMap ServiceConfig) : DepGraph :=
  (depEdges services).foldl addDep
    ⟨services.map (fun _ _ => 0), services.map (fun _ _ => [])⟩

def degreeOf (g : DepGraph) (name : String) : Nat := g.inDegree[name]?.getD 0

def dependentsOf (g : DepGraph) (name : String) : List String := g.graph[name]?.getD []

/-- The sorter Kahn's loop starts from: the services of degree zero are queued. -/
def kahnStart (services : BTreeMap ServiceConfig) : Sorter String :=
  let g := depGraph services
  ⟨degreeOf g, services.keys.filter (fun name => degreeOf g name = 0), []⟩

/-- `topo_sort`; a service is visited once, so their number is fuel enough. -/
def topoSort (services : BTreeMap ServiceConfig) : Except String (List String) :=
  let sorted := loop (dependentsOf (depGraph services)) services.size (kahnStart services)
  if sorted.result.length ≠ services.size then .error "circular dependency detected"
  else .ok sorted.result

/-! ## What the sort guarantees -/

/-- The dependencies of a service that are services of the map themselves. -/
def depsIn (services : BTreeMap ServiceConfig) (name : String) : List String :=
  match services[name]? with
  | some service => service.deps.filter (fun dep => dep ∈ services)
  | none => []

theorem mem_depsIn {services : BTreeMap ServiceConfig} {name dep : String} :
    dep ∈ depsIn services name
      ↔ ∃ service : ServiceConfig, services[name]? = some service ∧ dep ∈ service.deps
          ∧ dep ∈ services := by
  rw [depsIn]
  cases services[name]? with
  | none => simp
  | some service => simp

/-- Every service of the list stands after its dependencies. -/
def DepsFirst (services : BTreeMap ServiceConfig) (order : List String) : Prop :=
  ∀ xs name ys, order = xs ++ name :: ys → ∀ dep ∈ depsIn services name, dep ∈ xs

section TopoSort

theorem addDep_graph (g : DepGraph) (edge : String × String) (u : String) :
    (addDep g edge).graph[u]?
      = (g.graph[u]?).map (fun edges => if edge.2 = u then edges ++ [edge.1] else edges) := by
  rw [addDep]
  by_cases hu : edge.2 = u
  · subst hu
    cases h : g.graph[edge.2]? with
    | none => simp [h]
    | some edges => simp
  · cases h : g.graph[edge.2]? with
    | none => simp [hu]
    | some edges => simp [Std.ExtTreeMap.getElem?_insert, hu]

theorem addDep_inDegree (g : DepGraph) (edge : String × String) (v : String) :
    (addDep g edge).inDegree[v]?
      = (g.inDegree[v]?).map
          (fun n => if edge.1 = v ∧ edge.2 ∈ g.graph then n + 1 else n) := by
  rw [addDep]
  cases h : g.graph[edge.2]? with
  | none =>
      have hmem : edge.2 ∉ g.graph := by
        rw [Std.ExtTreeMap.mem_iff_isSome_getElem?, h]; exact Bool.false_ne_true
      simp [hmem]
  | some edges =>
      have hmem : edge.2 ∈ g.graph := by
        rw [Std.ExtTreeMap.mem_iff_isSome_getElem?, h]; rfl
      show (g.inDegree.modify edge.1 (· + 1))[v]? = _
      rw [Std.ExtTreeMap.getElem?_modify]
      by_cases hv : edge.1 = v
      · subst hv; simp [hmem]
      · simp [hv]

theorem addDep_mem (g : DepGraph) (edge : String × String) (u : String) :
    u ∈ (addDep g edge).graph ↔ u ∈ g.graph := by
  rw [Std.ExtTreeMap.mem_iff_isSome_getElem?, Std.ExtTreeMap.mem_iff_isSome_getElem?,
    addDep_graph, Option.isSome_map]

/-- The graph after all edges: under each service, the services that named it. -/
theorem foldl_addDep_graph (edges : List (String × String)) (g : DepGraph) (u : String) :
    (edges.foldl addDep g).graph[u]?
      = (g.graph[u]?).map (· ++ (edges.filter (·.2 = u)).map (·.1)) := by
  induction edges generalizing g with
  | nil => simp
  | cons edge edges ih =>
      rw [List.foldl_cons, ih, addDep_graph]
      by_cases hu : edge.2 = u
      · simp [hu, Function.comp_def]
      · simp [hu]

/-- The degrees after all edges: the edges of the service that lead into the map. -/
theorem foldl_addDep_inDegree (edges : List (String × String)) (g : DepGraph) (v : String) :
    (edges.foldl addDep g).inDegree[v]?
      = (g.inDegree[v]?).map
          (· + (edges.filter (fun e => e.1 = v ∧ e.2 ∈ g.graph)).length) := by
  induction edges generalizing g with
  | nil => simp
  | cons edge edges ih =>
      rw [List.foldl_cons, ih, addDep_inDegree]
      simp only [addDep_mem]
      by_cases hv : edge.1 = v ∧ edge.2 ∈ g.graph
      · simp [hv, Function.comp_def, Nat.add_assoc, Nat.add_comm 1]
      · simp [hv]

/-- The edges that leave one service are its dependencies. -/
theorem filter_edges {list : List (String × ServiceConfig)}
    (hnodup : (list.map (·.1)).Nodup) {v : String} {service : ServiceConfig}
    (hmem : (v, service) ∈ list) :
    (list.flatMap (fun kv => kv.2.deps.map (fun dep => (kv.1, dep)))).filter (·.1 = v)
      = service.deps.map (fun dep => (v, dep)) := by
  induction list with
  | nil => exact nomatch hmem
  | cons kv list ih =>
      obtain ⟨hkey, hnodup⟩ := List.nodup_cons.mp hnodup
      rw [List.flatMap_cons, List.filter_append]
      rcases List.mem_cons.mp hmem with heq | hmem
      · have hrest : (list.flatMap (fun kv => kv.2.deps.map (fun dep => (kv.1, dep)))).filter
            (·.1 = v) = [] := by
          refine List.filter_eq_nil_iff.mpr ?_
          intro e he hev
          obtain ⟨kv', hkv', hdep⟩ := List.mem_flatMap.mp he
          obtain ⟨dep, -, rfl⟩ := List.mem_map.mp hdep
          refine hkey (List.mem_map.mpr ⟨kv', hkv', ?_⟩)
          rw [← heq]
          simpa using hev
        rw [hrest, List.append_nil, ← heq]
        exact List.filter_eq_self.mpr (by simp)
      · have hne : ¬ kv.1 = v := by
          intro he
          exact hkey (List.mem_map.mpr ⟨(v, service), hmem, he.symm⟩)
        have hfirst : (kv.2.deps.map (fun dep => (kv.1, dep))).filter (·.1 = v) = [] :=
          List.filter_eq_nil_iff.mpr (by simp [hne])
        rw [hfirst, List.nil_append]
        exact ih hnodup hmem

variable (services : BTreeMap ServiceConfig)

theorem nodup_keys_toList : (services.toList.map (·.1)).Nodup := by
  rw [Std.ExtTreeMap.map_fst_toList_eq_keys]
  exact Std.ExtTreeMap.nodup_keys

/-- The edges of one service. -/
theorem depEdges_filter {v : String} {service : ServiceConfig}
    (hget : services[v]? = some service) :
    (depEdges services).filter (·.1 = v) = service.deps.map (fun dep => (v, dep)) :=
  filter_edges (nodup_keys_toList services)
    (Std.ExtTreeMap.mem_toList_iff_getElem?_eq_some.mpr hget)

theorem depGraph_degree {v : String} (hv : v ∈ services.keys) :
    degreeOf (depGraph services) v = (depsIn services v).length := by
  obtain ⟨service, hget⟩ : ∃ service, services[v]? = some service := by
    rw [Std.ExtTreeMap.mem_keys, Std.ExtTreeMap.mem_iff_isSome_getElem?] at hv
    exact Option.isSome_iff_exists.mp hv
  rw [degreeOf, depGraph, foldl_addDep_inDegree, depsIn, hget]
  have hsplit : (depEdges services).filter
        (fun e => e.1 = v ∧ e.2 ∈ services.map (fun _ _ => ([] : List String)))
      = ((depEdges services).filter (·.1 = v)).filter (fun e => e.2 ∈ services) := by
    rw [List.filter_filter]
    refine List.filter_congr ?_
    intro e _
    simp [Bool.and_comm]
  rw [hsplit, depEdges_filter services hget, List.filter_map, List.length_map]
  simp [hget, Function.comp_def]

theorem dependentsOf_eq {u : String} (hu : u ∈ services.keys) :
    dependentsOf (depGraph services) u
      = ((depEdges services).filter (·.2 = u)).map (·.1) := by
  rw [dependentsOf, depGraph, foldl_addDep_graph]
  rw [Std.ExtTreeMap.mem_keys, Std.ExtTreeMap.mem_iff_isSome_getElem?] at hu
  obtain ⟨service, hget⟩ := Option.isSome_iff_exists.mp hu
  simp [hget]

theorem depEdges_edges :
    Edges services.keys (depsIn services) (dependentsOf (depGraph services)) where
  predsIn := by
    intro v _ p hp
    obtain ⟨-, -, -, hmem⟩ := mem_depsIn.mp hp
    exact Std.ExtTreeMap.mem_keys.mpr hmem
  dependentsIn := by
    intro u hu v hv
    rw [dependentsOf_eq services hu] at hv
    obtain ⟨e, he, rfl⟩ := List.mem_map.mp hv
    obtain ⟨kv, hkv, hdep⟩ := List.mem_flatMap.mp (List.mem_of_mem_filter he)
    obtain ⟨dep, -, rfl⟩ := List.mem_map.mp hdep
    rw [← Std.ExtTreeMap.map_fst_toList_eq_keys]
    exact List.mem_map.mpr ⟨kv, hkv, rfl⟩
  count := by
    intro u hu v hv
    obtain ⟨service, hget⟩ : ∃ service, services[v]? = some service := by
      rw [Std.ExtTreeMap.mem_keys, Std.ExtTreeMap.mem_iff_isSome_getElem?] at hv
      exact Option.isSome_iff_exists.mp hv
    have hmem : u ∈ services := Std.ExtTreeMap.mem_keys.mp hu
    -- both sides count the edges from `v` to `u`
    have hleft : (dependentsOf (depGraph services) u).count v
        = (((depEdges services).filter (·.1 = v)).filter (·.2 = u)).length := by
      rw [dependentsOf_eq services hu, List.count_eq_countP, List.countP_map,
        List.countP_eq_length_filter, List.filter_filter, List.filter_filter]
      refine congrArg List.length (List.filter_congr ?_)
      intro e _
      simp [Bool.and_comm, beq_eq_decide]
    rw [hleft, depEdges_filter services hget, List.filter_map, List.length_map, depsIn, hget,
      List.count_filter (by simpa using hmem), List.count_eq_length_filter]
    refine congrArg List.length (List.filter_congr ?_)
    intro dep _
    simp [beq_eq_decide]

/-- Kahn's invariant holds of the sort. -/
theorem topoSort_sorted :
    Sorted services.keys (depsIn services)
      (loop (dependentsOf (depGraph services)) services.size (kahnStart services)) :=
  sorted_loop (depEdges_edges services) services.size
    (sorted_start Std.ExtTreeMap.nodup_keys _ (fun _ hv => depGraph_degree services hv))

variable {services}

/-- **A SORTED STACK STARTS DEPENDENCIES FIRST**, and each service once. -/
theorem topoSort_depsFirst {order : List String} (h : topoSort services = .ok order) :
    DepsFirst services order ∧ order.Nodup ∧ ∀ name ∈ order, name ∈ services := by
  have hsorted := topoSort_sorted services
  simp only [topoSort] at h
  generalize loop (dependentsOf (depGraph services)) services.size (kahnStart services) = sorted
    at hsorted h
  split at h
  · exact nomatch h
  · have heq : sorted.result = order := Except.ok.inj h
    subst heq
    refine ⟨hsorted.ordered, (List.nodup_append.mp hsorted.nodup).1, ?_⟩
    intro name hname
    exact Std.ExtTreeMap.mem_keys.mp (hsorted.subset name (List.mem_append_left _ hname))

/-- No service is left out of the order. -/
theorem topoSort_complete {order : List String} (h : topoSort services = .ok order) {name : String}
    (hname : name ∈ services) : name ∈ order := by
  obtain ⟨-, hnodup, hmem⟩ := topoSort_depsFirst h
  have hsize : order.length = services.size := by
    simp only [topoSort] at h
    split at h
    · exact nomatch h
    · next hlength =>
        obtain rfl := Except.ok.inj h
        exact not_ne_iff.mp hlength
  have hsubset : order ⊆ services.keys := by
    intro other hother
    exact Std.ExtTreeMap.mem_keys.mpr (hmem other hother)
  have hperm : order.Perm services.keys := by
    refine (List.subperm_of_subset hnodup hsubset).perm_of_length_le ?_
    exact Nat.le_of_eq (Std.ExtTreeMap.length_keys.trans hsize.symm)
  exact hperm.mem_iff.mpr (Std.ExtTreeMap.mem_keys.mpr hname)

end TopoSort

/-! ## Stack plans -/

structure StackConfig where
  services : BTreeMap ServiceConfig

structure ConfigFile where
  version : Nat
  stackConfigs : BTreeMap StackConfig
  defaultStack : Option String
  globals : Option (BTreeMap ServiceConfig)
  tasks : Option (BTreeMap TaskConfig)
  env : BTreeMap String
  envFile : Option String

/-- `StackPlan`, with what its order guarantees. -/
structure StackPlan where
  name : String
  services : BTreeMap ServiceConfig
  order : List String
  depsFirst : DepsFirst services order
  nodup : order.Nodup

/-- `ConfigFile::stack_plan`. -/
def stackPlan (config : ConfigFile) (name : String) : Except String StackPlan :=
  match config.stackConfigs[name]? with
  | none => .error s!"stack {name} not found"
  | some stack =>
      match h : topoSort stack.services with
      | .error err => .error err
      | .ok order =>
          .ok ⟨name, stack.services, order, (topoSort_depsFirst h).1, (topoSort_depsFirst h).2.1⟩

/-- The order of a stack's plan has every service of the plan. -/
theorem stackPlan_complete {config : ConfigFile} {stackName : String} {plan : StackPlan}
    (h : stackPlan config stackName = .ok plan) {name : String} (hname : name ∈ plan.services) :
    name ∈ plan.order := by
  rw [stackPlan] at h
  cases hstack : config.stackConfigs[stackName]? with
  | none => rw [hstack] at h; exact nomatch h
  | some stack =>
      rw [hstack] at h
      dsimp only at h
      split at h
      · exact nomatch h
      · next order hsort =>
          obtain rfl := Except.ok.inj h
          exact topoSort_complete hsort hname

/-- The loop of `filter_to`: the queue is followed along the dependencies. -/
def filterLoop (plan : StackPlan) : Nat → List String → List String → Except String (List String)
  | 0, needed, _ => .ok needed
  | _ + 1, needed, [] => .ok needed
  | fuel + 1, needed, name :: queue =>
      match plan.services[name]? with
      | none => .error s!"unknown service '{name}' in stack '{plan.name}'"
      | some service =>
          if name ∈ needed then filterLoop plan fuel needed queue
          else filterLoop plan fuel (needed ++ [name]) (queue ++ service.deps)

/-- Every service pushes its dependencies once. -/
def filterFuel (plan : StackPlan) (targets : List String) : Nat :=
  targets.length + (plan.services.toList.map (fun kv => kv.2.deps.length)).sum + 1

/-- A sorted list stays sorted when services are left out. -/
theorem depsFirst_filter {services : BTreeMap ServiceConfig} {order : List String}
    (h : DepsFirst services order) (needed : List String) :
    DepsFirst (services.filter (fun name _ => name ∈ needed))
      (order.filter (fun name => name ∈ needed)) := by
  intro xs name ys heq dep hdep
  obtain ⟨pre, post, horder, hpre, hpost⟩ := List.filter_eq_append_iff.mp heq
  obtain ⟨skip, ys', hpost', hskip, -, -⟩ := List.filter_eq_cons_iff.mp hpost
  obtain ⟨service, hget, hmem, hin⟩ := mem_depsIn.mp hdep
  have hkeep : dep ∈ needed ∧ dep ∈ services := by
    rw [Std.ExtTreeMap.mem_filter] at hin
    obtain ⟨hin, hneeded⟩ := hin
    exact ⟨by simpa using hneeded, hin⟩
  have hservice : services[name]? = some service := by
    rw [Std.ExtTreeMap.getElem?_filter] at hget
    exact Option.eq_some_of_pfilter_eq_some hget
  have horder' : order = (pre ++ skip) ++ name :: ys' := by
    rw [horder, hpost', List.append_assoc]
  have hbefore := h (pre ++ skip) name ys' horder' dep
    (mem_depsIn.mpr ⟨service, hservice, hmem, hkeep.2⟩)
  rw [← hpre]
  rcases List.mem_append.mp hbefore with hb | hb
  · exact List.mem_filter.mpr ⟨hb, by simpa using hkeep.1⟩
  · exact absurd hkeep.1 (by simpa using hskip dep hb)

/-- `StackPlan::filter_to`. -/
def filterTo (plan : StackPlan) (targets : List String) : Except String StackPlan :=
  match filterLoop plan (filterFuel plan targets) [] targets with
  | .error err => .error err
  | .ok needed =>
      .ok
        { name := plan.name
          services := plan.services.filter (fun name _ => name ∈ needed)
          order := plan.order.filter (fun name => name ∈ needed)
          depsFirst := depsFirst_filter plan.depsFirst needed
          nodup := plan.nodup.filter _ }

/-- `ConfigFile::stack_plan_filtered`. -/
def stackPlanFiltered (config : ConfigFile) (name : String) (only : List String) :
    Except String StackPlan :=
  match stackPlan config name with
  | .error err => .error err
  | .ok plan => if only = [] then .ok plan else filterTo plan only

/-- The plan of a stack has the stack's name. -/
theorem stackPlanFiltered_name {config : ConfigFile} {name : String} {only : List String}
    {plan : StackPlan} (h : stackPlanFiltered config name only = .ok plan) : plan.name = name := by
  have hplan : ∀ {plan : StackPlan}, stackPlan config name = .ok plan → plan.name = name := by
    intro plan h
    rw [stackPlan] at h
    split at h
    · exact nomatch h
    · split at h
      · exact nomatch h
      · cases h
        rfl
  rw [stackPlanFiltered] at h
  split at h
  · exact nomatch h
  · next loaded hloaded =>
      split at h
      · cases h
        exact hplan hloaded
      · rw [filterTo] at h
        split at h
        · exact nomatch h
        · cases h
          show loaded.name = name
          exact hplan hloaded

end DevstackConfig
