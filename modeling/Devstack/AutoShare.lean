import Devstack.Following

/-! # Auto-share — a monitor that inspects the new lines of several services

    `run_auto_share_monitor` of `src/agent/auto_share.rs` asks each watched service for
    its last line, keeps the `next_after` of the answer and then polls the services in
    turn for lines behind their cursors.  What becomes of the lines it inspects (the
    level that triggers, the rate limit, the message) is left out.

    A log without lines has no `next_after`, and the monitor takes 0: the number of the
    first line that comes, which is never inspected (`first_line_not_inspected`).
    Elsewhere it depends on whether the last line by timestamp is the last one
    (`auto_share_inspects_along`). -/

namespace DevstackAutoShare

open DevstackModel DevstackMachine DevstackLines DevstackCursor DevstackIngest DevstackIngestExact
open DevstackLogQuery DevstackFollowing

variable (tools : QueryTools) {ix : SearchIndex} (fmt : LineFormat) (cat : Catalogue)

/-- The run, its watched services and the paths of their logs. -/
structure AutoShareConfig where
  runId : String
  services : List String
  logPath : String → String

def AutoShareConfig.log (config : AutoShareConfig) (service : String) : LogSource :=
  ⟨config.runId, service, config.logPath service⟩

def fetchLatestServiceCursor (w : World ix) (s : LogSource) : Except String Nat :=
  (readServiceLogs tools w s ⟨{ LogFilterQuery.default with last := some 1 }, none⟩).map
    (fun logs => logs.nextAfter.getD 0)

def fetchServiceLogsAfter (w : World ix) (s : LogSource) (after : Nat) :
    Except String LogsResponse :=
  readServiceLogs tools w s ⟨{ LogFilterQuery.default with last := some 200 }, some after⟩

/-- Where `run_auto_share_monitor` is in its pass over the services, and its cursors; the
    lines it has inspected and how many documents a log had at its baseline are kept
    beside it. -/
structure Monitor where
  polling : Bool
  pending : List String
  cursors : BTreeMap Nat
  inspected : BTreeMap (List String)
  baselines : BTreeMap Nat

def Monitor.begin (ix : SearchIndex) (config : AutoShareConfig) (files : BTreeMap (List UInt8)) :
    Reading ix Monitor :=
  ⟨World.start ix files, false, config.services, ∅, ∅, ∅⟩

def Monitor.inspectedOf (m : Monitor) (service : String) : List String :=
  (m.inspected[service]?).getD []

/-- The next request of the monitor, or the end of a pass. -/
def monitor (config : AutoShareConfig) (w : World ix) (m : Monitor) : Monitor :=
  match m.pending with
  | [] => { m with polling := true, pending := config.services }
  | service :: rest =>
      let log := config.log service
      if m.polling then
        match fetchServiceLogsAfter tools w log ((m.cursors[service]?).getD 0) with
        | .error _ => { m with pending := rest }
        | .ok response =>
            { m with
              pending := rest
              cursors := match response.nextAfter with
                | none => m.cursors
                | some nextAfter => m.cursors.insert service nextAfter
              inspected := m.inspected.insert service (m.inspectedOf service ++ response.lines) }
      else
        let cursor := (fetchLatestServiceCursor tools w log).toOption.getD 0
        { m with
          pending := rest
          cursors := m.cursors.insert service cursor
          baselines := m.baselines.insert service (logDocs w log).length }

/-- A poll of a service inspects the next of the lines that were indexed since its
    baseline, and nothing else. -/
def InspectsOnce (config : AutoShareConfig) (t : Reading ix Monitor) : ReaderAction → Prop
  | .world _ => True
  | .request =>
      let next := monitor tools config t.world t.reader
      ∀ service ∈ config.services,
        if t.reader.polling = true ∧ t.reader.pending.head? = some service then
          ∃ n, t.reader.baselines[service]? = some n ∧
            let since := sinceThen n (logDocs t.world (config.log service))
            Ascending PendingDoc.seq since
              ∧ t.reader.inspectedOf service <+: since.map (·.raw)
              ∧ next.inspectedOf service
                  = (since.take ((t.reader.inspectedOf service).length + 200)).map (·.raw)
        else next.inspectedOf service = t.reader.inspectedOf service

/-- A baseline finds lines, and among the first of the newest by timestamp the last one. -/
def BaselineLast (config : AutoShareConfig) (t : Reading ix Monitor) : ReaderAction → Prop
  | .world _ => True
  | .request =>
      t.reader.polling = false → ∀ service ∈ t.reader.pending.head?,
        logDocs t.world (config.log service) ≠ []
          ∧ NewestFits 1 (logDocs t.world (config.log service))

section Monitor

variable {tools fmt cat} {config : AutoShareConfig}

/-- Without a filter every document matches. -/
theorem matching_default (w : World ix) (s : LogSource) (last : Option Nat) :
    matching tools w s { LogFilterQuery.default with last := last } = logDocs w s := by
  rw [matching]
  show (logDocs w s).filter (addLevelFilter (buildScopeQuery s.runId (some s.service) none none none)
    "all") = _
  refine List.filter_eq_self.mpr fun d hd => ?_
  obtain ⟨-, hrun, hservice⟩ := mem_docsOf.mp hd
  have hall : ¬ (trim "all" = "error" ∨ trim "all" = "warn") := by decide
  rw [addLevelFilter, if_neg hall, Bool.and_true, buildScopeQuery, hrun, hservice]
  simp

/-- The baseline of a service is taken, and its cursor is behind what was inspected. -/
structure Based (w : World ix) (m : Monitor) (s : LogSource) (n : Nat) : Prop where
  baseline : m.baselines[s.service]? = some n
  before : n ≤ (logDocs w s).length
  found : (m.cursors[s.service]?).isSome
  follows : ∃ got, got <+: sinceThen n (logDocs w s)
    ∧ m.inspectedOf s.service = got.map (·.raw)
    ∧ m.cursors[s.service]? = lastKey PendingDoc.seq
        ((logDocs w s).filter (fun doc => decide (doc.seq < n)) ++ got)

/-- Every watched service has its baseline or is still waiting for it. -/
structure MonitorAt (fmt : LineFormat) (config : AutoShareConfig) (t : Reading ix Monitor) :
    Prop where
  synced : ∀ service ∈ config.services, ∃ done, SyncedTo fmt t.world (config.log service) done
  pending : ∀ service ∈ t.reader.pending, service ∈ config.services
  fresh : t.reader.polling = false → ∀ service, t.reader.inspectedOf service = []
  based : ∀ service ∈ config.services, t.reader.polling = false ∧ service ∈ t.reader.pending
    ∨ ∃ n, Based t.world t.reader (config.log service) n

theorem Based.world {s : LogSource} {w : World ix} {m : Monitor} {n : Nat} (h : Based w m s n)
    {done done' : List UInt8} (hdone : SyncedTo fmt w s done) {a : Action}
    (hdone' : SyncedTo fmt (step ix fmt cat w a) s done') (hgrow : done <+: done') :
    Based (step ix fmt cat w a) m s n := by
  obtain ⟨more, hmore, hseq⟩ := logDocs_grow hdone hdone' hgrow
  obtain ⟨hold, hsince⟩ := sinceThen_grow hseq h.before (logDocs w s)
  obtain ⟨got, hgot, hinspected, hcursor⟩ := h.follows
  refine ⟨h.baseline, ?_, h.found, got, ?_, hinspected, ?_⟩
  · rw [hmore, List.length_append]
    exact Nat.le_add_right_of_le h.before
  · rw [hmore]
    exact hgot.trans hsince
  · rw [hmore, hold]
    exact hcursor

theorem MonitorAt.world (hs : ∀ service ∈ config.services, config.log service ∈ cat.sources)
    {t : Reading ix Monitor} (h : MonitorAt fmt config t)
    (htext : ∀ service ∈ config.services, TextLog (config.log service) t.world) (a : Action) :
    MonitorAt fmt config (readerStep fmt cat (monitor tools config) t (.world a)) := by
  refine ⟨fun service hservice => ?_, h.pending, h.fresh, fun service hservice => ?_⟩
  · obtain ⟨done, hdone⟩ := h.synced service hservice
    obtain ⟨done', -, hdone'⟩ := hdone.step (hs service hservice) a (htext service hservice)
    exact ⟨done', hdone'⟩
  · obtain ⟨done, hdone⟩ := h.synced service hservice
    obtain ⟨done', hgrow, hdone'⟩ := hdone.step (hs service hservice) a (htext service hservice)
    exact (h.based service hservice).imp id fun ⟨n, hn⟩ => ⟨n, hn.world hdone hdone' hgrow⟩

/-- What is kept of a service that was not asked. -/
theorem Based.of_eq {s : LogSource} {w : World ix} {m m' : Monitor} {n : Nat} (h : Based w m s n)
    (hbaseline : m'.baselines[s.service]? = m.baselines[s.service]?)
    (hcursor : m'.cursors[s.service]? = m.cursors[s.service]?)
    (hinspected : m'.inspectedOf s.service = m.inspectedOf s.service) : Based w m' s n :=
  ⟨hbaseline.trans h.baseline, h.before, hcursor ▸ h.found, by rw [hinspected, hcursor]; exact h.follows⟩

/-- A baseline. -/
theorem based_baseline {s : LogSource} {w : World ix} {done : List UInt8}
    (hdone : SyncedTo fmt w s done) (hne : logDocs w s ≠ []) (hfits : NewestFits 1 (logDocs w s))
    {m : Monitor} (hnone : m.inspectedOf s.service = []) (rest : List String) :
    Based w { m with
      pending := rest
      cursors := m.cursors.insert s.service
        ((fetchLatestServiceCursor tools w s).toOption.getD 0)
      baselines := m.baselines.insert s.service (logDocs w s).length } s (logDocs w s).length := by
  have hall : (logDocs w s).filter (fun doc => decide (doc.seq < (logDocs w s).length)) = logDocs w s :=
    List.filter_eq_self.mpr fun d hd => decide_eq_true (lt_of_mem_logDocs hdone hd)
  have hcursor : some ((fetchLatestServiceCursor tools w s).toOption.getD 0)
      = lastKey PendingDoc.seq (logDocs w s) := by
    rw [fetchLatestServiceCursor]
    cases hanswer : readServiceLogs tools w s
        ⟨{ LogFilterQuery.default with last := some 1 }, none⟩ with
    | error err =>
        have hnil := readServiceLogs_error tools hanswer
        rw [matching_default] at hnil
        exact absurd hnil hne
    | ok response =>
        obtain ⟨-, hnext⟩ := readServiceLogs_latest tools hdone hanswer
        rw [← matching_last tools w s _ none, matching_default, (nextAfter_iff _ _).mpr hfits,
          largestSeq, (logDocs_ascending hdone).max?_eq] at hnext
        show some (response.nextAfter.getD 0) = _
        rw [hnext]
        cases hlast : lastKey PendingDoc.seq (logDocs w s) with
        | none => exact absurd ((lastKey_eq_none _).mp hlast) hne
        | some k => rfl
  refine ⟨by simp, Nat.le_refl _, by simp, [], List.nil_prefix, hnone, ?_⟩
  rw [hall, List.append_nil, ← hcursor]
  simp

theorem inspectedOf_insert {m m' : Monitor} {service : String} {lines : List String}
    (h : m'.inspected = m.inspected.insert service lines) :
    m'.inspectedOf service = lines
      ∧ ∀ other, other ≠ service → m'.inspectedOf other = m.inspectedOf other := by
  rw [Monitor.inspectedOf, h]
  refine ⟨by simp, fun other hne => ?_⟩
  rw [Monitor.inspectedOf, h, Monitor.inspectedOf]
  simp [Std.ExtTreeMap.getElem?_insert, hne.symm]

/-- A poll. -/
theorem Based.poll {s : LogSource} {w : World ix} {done : List UInt8}
    (hdone : SyncedTo fmt w s done) {m : Monitor} {n : Nat} (h : Based w m s n)
    (rest : List String) :
    ∃ response, fetchServiceLogsAfter tools w s ((m.cursors[s.service]?).getD 0) = .ok response
      ∧ m.inspectedOf s.service ++ response.lines
          = ((sinceThen n (logDocs w s)).take ((m.inspectedOf s.service).length + 200)).map (·.raw)
      ∧ Based w { m with
          pending := rest
          cursors := match response.nextAfter with
            | none => m.cursors
            | some nextAfter => m.cursors.insert s.service nextAfter
          inspected := m.inspected.insert s.service
            (m.inspectedOf s.service ++ response.lines) } s n := by
  obtain ⟨got, hgot, hinspected, hcursor⟩ := h.follows
  obtain ⟨cursor, hfound⟩ := Option.isSome_iff_exists.mp h.found
  rw [hfound] at hcursor
  have hlength : (m.inspectedOf s.service).length = got.length := by rw [hinspected, List.length_map]
  rw [hfound, Option.getD_some, fetchServiceLogsAfter]
  cases hanswer : readServiceLogs tools w s
      ⟨{ LogFilterQuery.default with last := some 200 }, some cursor⟩ with
  | error err =>
      -- a log with a cursor has a document
      have hnil := readServiceLogs_error tools hanswer
      rw [matching_default] at hnil
      rw [hnil] at hgot hcursor
      rw [List.prefix_nil.mp hgot] at hcursor
      exact nomatch hcursor
  | ok response =>
      obtain ⟨hpage, hnext⟩ := readServiceLogs_after tools hdone
        (show 0 < ({ LogFilterQuery.default with last := some 200 } : LogFilterQuery).tail
          from Nat.succ_pos 199) hanswer
      rw [matching_default] at hpage hnext
      obtain ⟨htake, hlast⟩ := follow_page (logDocs_ascending hdone) hgot hcursor 200
      generalize hp : (later PendingDoc.seq cursor (logDocs w s)).take 200 = page at htake hlast
      have hpage : response.lines = page.map (·.raw) := hpage.trans (congrArg _ hp)
      have hnext : response.nextAfter = lastKey PendingDoc.seq page := hnext.trans (congrArg _ hp)
      have hlines : m.inspectedOf s.service ++ response.lines = (got ++ page).map (·.raw) := by
        rw [hinspected, hpage, List.map_append]
      have hcursor' : (match response.nextAfter with
            | none => m.cursors
            | some nextAfter => m.cursors.insert s.service nextAfter)[s.service]?
          = some ((lastKey PendingDoc.seq page).getD cursor) := by
        rw [hnext]
        cases lastKey PendingDoc.seq page with
        | none => exact hfound
        | some k => simp
      refine ⟨response, rfl, ?_, h.baseline, h.before, ?_, got ++ page, ?_, ?_, ?_⟩
      · rw [hlines, htake, hlength]
      · exact Option.isSome_iff_exists.mpr ⟨_, hcursor'⟩
      · rw [htake]
        exact List.take_prefix _ _
      · exact (inspectedOf_insert rfl).1.trans hlines
      · exact hcursor'.trans hlast

/-- **THE MONITOR'S REQUEST.** -/
theorem MonitorAt.request {t : Reading ix Monitor} (h : MonitorAt fmt config t)
    (hok : BaselineLast config t .request) :
    MonitorAt fmt config (readerStep fmt cat (monitor tools config) t .request)
      ∧ InspectsOnce tools config t .request := by
  rw [InspectsOnce, readerStep]
  cases hpending : t.reader.pending with
  | nil =>
      simp only [monitor, hpending]
      refine ⟨⟨h.synced, fun _ hservice => hservice, fun hpolling => (by cases hpolling), ?_⟩, ?_⟩
      · intro service hservice
        rcases h.based service hservice with ⟨-, hwaiting⟩ | ⟨n, hn⟩
        · rw [hpending] at hwaiting
          cases hwaiting
        · exact .inr ⟨n, hn.of_eq rfl rfl rfl⟩
      · intro service _
        rw [if_neg (by simp)]
        rfl
  | cons service rest =>
      have hservice : service ∈ config.services :=
        h.pending service (hpending ▸ List.mem_cons_self)
      obtain ⟨done, hdone⟩ := h.synced service hservice
      have hrest : ∀ other ∈ rest, other ∈ config.services :=
        fun other hother => h.pending other (hpending ▸ List.mem_cons_of_mem _ hother)
      cases hpolling : t.reader.polling with
      | false =>
          simp only [monitor, hpending, hpolling, Bool.false_eq_true, if_false, false_and]
          refine ⟨⟨h.synced, hrest, fun _ => h.fresh hpolling, fun other hother => ?_⟩,
            fun _ _ => rfl⟩
          obtain ⟨hne, hfits⟩ := hok hpolling service (by rw [hpending]; rfl)
          by_cases hsame : other = service
          · subst hsame
            have hbased := @based_baseline tools ix fmt (config.log other) _ _ hdone hne hfits
              t.reader (h.fresh hpolling other) rest
            exact .inr ⟨_, hbased.of_eq rfl rfl rfl⟩
          · rcases h.based other hother with ⟨-, hwaiting⟩ | ⟨n, hn⟩
            · rw [hpending] at hwaiting
              exact .inl ⟨rfl, (List.mem_cons.mp hwaiting).resolve_left hsame⟩
            · refine .inr ⟨n, hn.of_eq ?_ ?_ rfl⟩
              · exact Std.ExtTreeMap.getElem?_insert.trans
                  (if_neg (by simpa [AutoShareConfig.log] using Ne.symm hsame))
              · exact Std.ExtTreeMap.getElem?_insert.trans
                  (if_neg (by simpa [AutoShareConfig.log] using Ne.symm hsame))
      | true =>
          obtain ⟨n, hbased⟩ : ∃ n, Based t.world t.reader (config.log service) n :=
            (h.based service hservice).resolve_left fun hwaiting => by
              rw [hpolling] at hwaiting
              cases hwaiting.1
          obtain ⟨response, hanswer, hlines, hnext⟩ :=
            @Based.poll tools ix fmt _ _ _ hdone _ _ hbased rest
          simp only [AutoShareConfig.log] at hanswer
          simp only [monitor, hpending, hpolling, if_true, AutoShareConfig.log, hanswer, true_and,
            List.head?_cons, Option.some.injEq]
          refine ⟨⟨h.synced, hrest, fun hnot => (by cases hnot), fun other hother => .inr ?_⟩,
            fun other _ => ?_⟩
          · by_cases hsame : other = service
            · subst hsame
              exact ⟨n, hnext.of_eq rfl rfl rfl⟩
            · obtain ⟨n', hn'⟩ := (h.based other hother).resolve_left fun hwaiting => by
                rw [hpolling] at hwaiting
                cases hwaiting.1
              refine ⟨n', hn'.of_eq rfl ?_ ((inspectedOf_insert rfl).2 other hsame)⟩
              show (match response.nextAfter with
                | none => t.reader.cursors
                | some nextAfter => t.reader.cursors.insert service nextAfter)[other]? = _
              cases response.nextAfter with
              | none => rfl
              | some k =>
                  exact Std.ExtTreeMap.getElem?_insert.trans (if_neg (by simpa using Ne.symm hsame))
          · split
            · next hsame =>
                subst hsame
                obtain ⟨got, hgot, hinspected, -⟩ := hbased.follows
                exact ⟨n, hbased.baseline, (logDocs_ascending hdone).sublist List.filter_sublist,
                  hinspected ▸ hgot.map _, (inspectedOf_insert rfl).1.trans hlines⟩
            · next hother => exact (inspectedOf_insert rfl).2 other (Ne.symm hother)

end Monitor

/-- **AUTO-SHARE INSPECTS EVERY NEW LINE ONCE** along every run whose baselines find the last
    line of their logs. -/
theorem auto_share_inspects_along (ix : SearchIndex) (files : BTreeMap (List UInt8))
    (config : AutoShareConfig)
    (hs : ∀ service ∈ config.services, config.log service ∈ cat.sources)
    (actions : List ReaderAction)
    (hok : Along (readerStep fmt cat (monitor tools config))
      (fun t a => (∀ service ∈ config.services, TextLog (config.log service) t.world)
        ∧ BaselineLast config t a)
      (Monitor.begin ix config files) actions) :
    Along (readerStep fmt cat (monitor tools config)) (InspectsOnce tools config)
      (Monitor.begin ix config files) actions := by
  have hbegin : MonitorAt fmt config (Monitor.begin ix config files) :=
    ⟨fun service hservice => synced_start fmt cat files _ (hs service hservice), fun _ h => h,
      fun _ service => by simp [Monitor.begin, Monitor.inspectedOf],
      fun service hservice => .inl ⟨rfl, hservice⟩⟩
  refine along_of_guarded _ ?_ ?_ actions _ hbegin hok
  · rintro t a h ⟨htext, hok⟩
    cases a with
    | world a => exact h.world hs htext a
    | request => exact (@MonitorAt.request tools ix fmt cat config t h hok).1
  · rintro t a h ⟨-, hok⟩
    cases a with
    | world a => trivial
    | request => exact (@MonitorAt.request tools ix fmt cat config t h hok).2

/-! ## The service `web` -/

def webWatched : AutoShareConfig := ⟨"r1", ["web"], fun _ => "/logs/web.log"⟩

/-- The line `a`, the baseline, the line `b` and a poll. -/
theorem auto_share_inspects_web :
    Along (readerStep plainFormat webCatalogue (monitor plainTools webWatched))
      (InspectsOnce plainTools webWatched) (Monitor.begin listIndex webWatched ∅)
      [.world (.append "/logs/web.log" [0x61, 0x0A]), .world webIngest, .request, .request,
        .world (.append "/logs/web.log" [0x62, 0x0A]), .world webIngest, .request] := by
  have hfirst : logDocs
      (run (readerStep plainFormat webCatalogue (monitor plainTools webWatched))
        (Monitor.begin listIndex webWatched ∅)
        [.world (.append "/logs/web.log" [0x61, 0x0A]), .world webIngest]).world
      (webWatched.log "web") = [plainDoc 0 0 "a"] := by decide +kernel
  simp only [run_cons, run_nil] at hfirst
  refine auto_share_inspects_along plainTools plainFormat webCatalogue listIndex ∅ webWatched
    (by decide) _ ?_
  refine ⟨⟨by decide +kernel, trivial⟩, ⟨by decide +kernel, trivial⟩, ⟨by decide +kernel, ?_⟩,
    ⟨by decide +kernel, ?_⟩, ⟨by decide +kernel, trivial⟩, ⟨by decide +kernel, trivial⟩,
    ⟨by decide +kernel, ?_⟩, trivial⟩
  · rintro - service hservice
    obtain rfl : "web" = service := Option.some.inj hservice
    rw [hfirst]
    exact ⟨by decide, .inr ⟨0, plainDoc 0 0 "a", by decide, by decide⟩⟩
  · exact fun _ service hservice => (nomatch hservice)
  · exact fun hpolling => (nomatch hpolling)

/-- The log is empty at the baseline: the monitor asks for lines behind the first one. -/
theorem first_line_not_inspected :
    ¬ Along (readerStep plainFormat webCatalogue (monitor plainTools webWatched))
      (InspectsOnce plainTools webWatched) (Monitor.begin listIndex webWatched ∅)
      [.world (.append "/logs/web.log" []), .world webIngest, .request, .request,
        .world (.append "/logs/web.log" [0x61, 0x0A]), .world webIngest, .request] := by
  rintro ⟨-, -, -, -, -, -, hlast, -⟩
  have hweb := hlast "web" List.mem_cons_self
  rw [if_pos (by decide +kernel)] at hweb
  obtain ⟨n, hn, -, -, hinspected⟩ := hweb
  obtain rfl : 0 = n := by
    refine Option.some.inj (Eq.trans ?_ hn)
    decide +kernel
  revert hinspected
  decide +kernel

end DevstackAutoShare
