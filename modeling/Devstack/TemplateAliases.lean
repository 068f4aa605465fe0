import Devstack.Prepare
import Mathlib.Data.String.Basic

/-! # Template aliases — a service under its own name

    `build_template_context` of `src/app/launch/context.rs` puts every service into one
    map, under its name and under the name with underscores for dashes.  The alias of a
    service is no smaller than its name (`not_alias_lt`), and the port map is read in the
    order of the names, so what stands under a name at the end is the service of that
    name: `own_entry`. -/

namespace DevstackTemplateAliases

open DevstackModel DevstackPrepare

-- ── aliases ───────────────────────────────────────────────────────────────────

/-- `service.replace('-', "_")`. -/
def underscoreKey (service : String) : String :=
  String.ofList (service.toList.map (fun ch => if ch = '-' then '_' else ch))

/-- The entry of a service of its own port. -/
def ownEntry (listenPortMap : BTreeMap (Option Port)) (schemes : BTreeMap String)
    (service : String) (port : Option Port) : ServiceEntry where
  port := port
  url := port.map (readinessUrl (schemes.getD service "http"))
  listenPort := (listenPortMap[service]?).join

theorem not_map_lt {f : Char → Char} (hf : ∀ c, c ≤ f c) (cs : List Char) : ¬ cs.map f < cs := by
  induction cs with
  | nil => exact List.not_lt_nil []
  | cons c cs ih =>
      rw [List.map_cons, List.cons_lt_cons_iff]
      rintro (hlt | ⟨-, hlt⟩)
      · exact absurd (hf c) (Std.not_le.mpr hlt)
      · exact ih hlt

/-- An alias is no smaller than the name. -/
theorem not_alias_lt (service : String) : ¬ underscoreKey service < service := by
  rw [String.lt_iff_toList_lt, underscoreKey, String.toList_ofList]
  refine not_map_lt (fun c => ?_) _
  by_cases hc : c = '-'
  · rw [hc, if_pos rfl]
    decide
  · rw [if_neg hc]

/-- No service has a smaller name as its alias. -/
theorem alias_ne {service other : String} (h : other < service) :
    underscoreKey service ≠ other := by
  rintro rfl
  exact not_alias_lt service h

-- ── the loop ──────────────────────────────────────────────────────────────────

section Loop

variable (listenPortMap : BTreeMap (Option Port)) (schemes : BTreeMap String)

theorem addEntry_self (services : BTreeMap ServiceEntry) (entry : String × Option Port) :
    (addEntry listenPortMap schemes services entry)[entry.1]?
      = some (ownEntry listenPortMap schemes entry.1 entry.2) :=
  Std.ExtTreeMap.getElem?_insert_self

/-- An entry leaves those of smaller names. -/
theorem addEntry_smaller (services : BTreeMap ServiceEntry) {entry : String × Option Port}
    {name : String} (h : name < entry.1) :
    (addEntry listenPortMap schemes services entry)[name]? = services[name]? := by
  have hname : ¬ compare entry.1 name = .eq := fun heq => by
    rw [Std.LawfulEqCmp.eq_of_compare heq] at h
    exact Std.lt_irrefl h
  have halias : ¬ compare (underscoreKey entry.1) name = .eq := fun heq =>
    alias_ne h (Std.LawfulEqCmp.eq_of_compare heq)
  rw [addEntry, Std.ExtTreeMap.getElem?_insert, if_neg hname]
  split
  · exact (Std.ExtTreeMap.getElem?_insert ..).trans (if_neg halias)
  · rfl

/-- Over entries in the order of their names, each name keeps its own. -/
theorem foldl_addEntry {entries : List (String × Option Port)}
    (hsorted : entries.Pairwise (fun a b => a.1 < b.1)) (services : BTreeMap ServiceEntry) :
    (∀ entry ∈ entries, (entries.foldl (addEntry listenPortMap schemes) services)[entry.1]?
      = some (ownEntry listenPortMap schemes entry.1 entry.2))
    ∧ ∀ name, (∀ entry ∈ entries, name < entry.1) →
      (entries.foldl (addEntry listenPortMap schemes) services)[name]? = services[name]? := by
  induction entries generalizing services with
  | nil => exact ⟨fun _ h => absurd h List.not_mem_nil, fun _ _ => rfl⟩
  | cons first entries ih =>
      obtain ⟨hfirst, hrest⟩ := List.pairwise_cons.mp hsorted
      obtain ⟨hown, hsmaller⟩ := ih hrest (addEntry listenPortMap schemes services first)
      constructor
      · intro entry hentry
        rcases List.mem_cons.mp hentry with rfl | hentry
        · rw [List.foldl_cons, hsmaller entry.1 hfirst]
          exact addEntry_self listenPortMap schemes services entry
        · exact hown entry hentry
      · intro name hname
        rw [List.foldl_cons,
          hsmaller name fun entry hentry => hname entry (List.mem_cons_of_mem _ hentry)]
        exact addEntry_smaller listenPortMap schemes services (hname first List.mem_cons_self)

end Loop

theorem toList_sorted {α : Type} (map : BTreeMap α) :
    map.toList.Pairwise (fun a b => a.1 < b.1) :=
  Std.ExtTreeMap.ordered_keys_toList.imp fun h => compare_lt_iff_lt.mp h

theorem context_services (scope : InstanceScope) (projectDir : String)
    (portMap listenPortMap : BTreeMap (Option Port)) (schemes : BTreeMap String) :
    (buildTemplateContext scope projectDir portMap listenPortMap schemes).services
      = portMap.toList.foldl (addEntry listenPortMap schemes) ∅ := by
  cases scope <;> rfl

/-- **NO ALIAS SHADOWS A SERVICE**: under every name of the port map the context has the
    port, the URL and the listen port of the service of that name. -/
theorem own_entry (scope : InstanceScope) (projectDir : String)
    {portMap : BTreeMap (Option Port)} (listenPortMap : BTreeMap (Option Port))
    (schemes : BTreeMap String) {service : String} {port : Option Port}
    (h : portMap[service]? = some port) :
    (buildTemplateContext scope projectDir portMap listenPortMap schemes).services[service]?
      = some (ownEntry listenPortMap schemes service port) := by
  rw [context_services]
  exact (foldl_addEntry listenPortMap schemes (toList_sorted portMap) ∅).1 (service, port)
    (Std.ExtTreeMap.mem_toList_iff_getElem?_eq_some.mpr h)

/-- A service `a_b` beside `a-b`. -/
theorem own_entry_underscore :
    (buildTemplateContext (.run "r1" "dev") "/srv"
        ((∅ : BTreeMap (Option Port)).insert "a_b" (some 81) |>.insert "a-b" (some 80)) ∅ ∅).services["a_b"]?
      = some ⟨some 81, some "http://localhost:81", none⟩ :=
  own_entry (.run "r1" "dev") "/srv" ∅ ∅ (by decide)

end DevstackTemplateAliases
