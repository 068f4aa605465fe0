import Devstack.Lib.AsciiWords
import Devstack.Prepare

/-! # Names — which services share a unit name or a variable

    Unit names and injected variables are made from sanitized names: letters in
    upper case, every other character an underscore.  Of the characters a name may
    have, the sanitizing confuses a letter with its other case, and '.', '_' and '-'
    with one another; nothing else.  So the names of two services clash exactly if
    the services' own names are alike in this sense. -/

namespace DevstackNames

open DevstackModel DevstackConfig DevstackLaunch DevstackExclusivity DevstackValidate
  DevstackPrepare
open DevstackAsciiWords (isAlphanum_lt)
open DevstackLines (cut_at)

/-! ## Sanitized names -/

/-- The characters of names that are no letters and no digits. -/
def isNamePunct (ch : Char) : Bool := ch == '.' || ch == '_' || ch == '-'

/-- Two characters that differ in case only, or are both punctuation. -/
def alikeChar (a b : Char) : Bool := a.toUpper == b.toUpper || (isNamePunct a && isNamePunct b)

/-- Names of one length whose characters are alike, one by one. -/
def Alike (name name' : String) : Prop :=
  List.Forall₂ (fun a b => alikeChar a b = true) name.toList name'.toList

/-- What `sanitize_env_key` makes of one character. -/
def sanitizeChar (ch : Char) : Char := if ch.isAlphanum then ch.toUpper else '_'

/-- What holds of the characters up to 'z' that names may have holds of all they may have. -/
theorem nameChar_forall {P : Char → Prop}
    (h : ∀ n < 123, isNameChar (Char.ofNat n) = true → P (Char.ofNat n)) {ch : Char}
    (hch : isNameChar ch = true) : P ch := by
  have hlt : ch.toNat < 123 := by
    simp only [isNameChar, Bool.or_eq_true, beq_iff_eq] at hch
    rcases hch with ((halnum | rfl) | rfl) | rfl
    · exact isAlphanum_lt halnum
    · decide
    · decide
    · decide
  have hround : Char.ofNat ch.toNat = ch := Char.ofNat_toNat ch
  rw [← hround] at hch ⊢
  exact h ch.toNat hlt hch

theorem isNamePunct_toUpper {ch : Char} (h : isNameChar ch = true) :
    isNamePunct ch.toUpper = isNamePunct ch :=
  nameChar_forall (P := fun ch => isNamePunct ch.toUpper = isNamePunct ch) (by decide) h

theorem isAlphanum_of_nameChar {ch : Char} (h : isNameChar ch = true) :
    ch.isAlphanum = !isNamePunct ch :=
  nameChar_forall (P := fun ch => ch.isAlphanum = !isNamePunct ch) (by decide) h

theorem sanitizeChar_ne_dash {ch : Char} (h : isNameChar ch = true) : sanitizeChar ch ≠ '-' :=
  nameChar_forall (P := fun ch => sanitizeChar ch ≠ '-') (by decide) h

/-- **WHAT SANITIZING CONFUSES**, character by character. -/
theorem sanitizeChar_eq_iff {a b : Char} (ha : isNameChar a = true) (hb : isNameChar b = true) :
    sanitizeChar a = sanitizeChar b ↔ alikeChar a b = true := by
  have hupper : a.toUpper = b.toUpper → isNamePunct a = isNamePunct b := fun h => by
    rw [← isNamePunct_toUpper ha, ← isNamePunct_toUpper hb, h]
  have hunder : ∀ {c}, isNameChar c = true → isNamePunct c = false → c.toUpper ≠ '_' := by
    intro c hc hpunct heq
    rw [← isNamePunct_toUpper hc, heq] at hpunct
    exact absurd hpunct (by decide)
  rw [sanitizeChar, sanitizeChar, alikeChar, isAlphanum_of_nameChar ha, isAlphanum_of_nameChar hb]
  cases hpa : isNamePunct a with
  | true =>
      cases hpb : isNamePunct b with
      | true => simp
      | false =>
          have hne := (hunder hb hpb).symm
          have hcase : a.toUpper ≠ b.toUpper := by
            intro h
            rw [hupper h, hpb] at hpa
            exact nomatch hpa
          simp [hne, hcase]
  | false =>
      cases hpb : isNamePunct b with
      | true =>
          have hne := hunder ha hpa
          have hcase : a.toUpper ≠ b.toUpper := by
            intro h
            rw [hupper h, hpb] at hpa
            exact nomatch hpa
          simp [hne, hcase]
      | false => simp

/-- An accepted name has a character, and only characters of names. -/
theorem nameChars_of_accepted {kind value : String}
    (h : validateNameForPathComponent kind value = .ok ()) :
    value.toList ≠ [] ∧ ∀ ch ∈ value.toList, isNameChar ch = true := by
  obtain ⟨hempty, -, -, hchars⟩ := validateName_ok.mp h
  exact ⟨by simpa using hempty, hchars⟩

/-- An accepted name is sanitized character by character. -/
theorem sanitizeEnvKey_toList {kind value : String}
    (h : validateNameForPathComponent kind value = .ok ()) :
    (sanitizeEnvKey value).toList = value.toList.map sanitizeChar := by
  have hne : value.toList.map sanitizeChar ≠ [] := by
    simpa using (nameChars_of_accepted h).1
  show (if value.toList.map sanitizeChar = [] then "_"
    else String.ofList (value.toList.map sanitizeChar)).toList = _
  rw [if_neg hne, String.toList_ofList]

/-- **WHICH NAMES SANITIZE ALIKE.** -/
theorem sanitizeEnvKey_eq_iff {kind kind' value value' : String}
    (h : validateNameForPathComponent kind value = .ok ())
    (h' : validateNameForPathComponent kind' value' = .ok ()) :
    sanitizeEnvKey value = sanitizeEnvKey value' ↔ Alike value value' := by
  rw [← String.toList_inj, sanitizeEnvKey_toList h, sanitizeEnvKey_toList h', Alike]
  have hchars := (nameChars_of_accepted h).2
  have hchars' := (nameChars_of_accepted h').2
  generalize value.toList = xs at hchars
  generalize value'.toList = ys at hchars'
  induction xs generalizing ys with
  | nil => cases ys <;> simp
  | cons x xs ih =>
      cases ys with
      | nil => simp
      | cons y ys =>
          rw [List.forall_mem_cons] at hchars hchars'
          rw [List.map_cons, List.map_cons, List.cons_eq_cons, List.forall₂_cons]
          exact Iff.and (sanitizeChar_eq_iff hchars.1 hchars'.1) (ih hchars.2 ys hchars'.2)

theorem no_dash {kind value : String} (h : validateNameForPathComponent kind value = .ok ()) :
    '-' ∉ (sanitizeEnvKey value).toList := by
  rw [sanitizeEnvKey_toList h]
  intro hmem
  obtain ⟨ch, hch, heq⟩ := List.mem_map.mp hmem
  exact sanitizeChar_ne_dash ((nameChars_of_accepted h).2 ch hch) heq

/-! ## Unit names -/

theorem unitNameForRun_toList (runId service : String) :
    (unitNameForRun runId service).toList
      = "devstack-run-".toList ++ ((sanitizeEnvKey runId).toList
          ++ '-' :: ((sanitizeEnvKey service).toList ++ ".service".toList)) := by
  show (s!"devstack-run-{sanitizeEnvKey runId}-{sanitizeEnvKey service}.service").toList = _
  simp only [String.toList_append, toString, List.append_assoc]
  rfl

/-- **WHICH UNITS SHARE A NAME.** -/
theorem unitNameForRun_eq_iff {run run' service service' : String}
    (hrun : validateNameForPathComponent "run id" run = .ok ())
    (hrun' : validateNameForPathComponent "run id" run' = .ok ())
    (hservice : validateNameForPathComponent "service" service = .ok ())
    (hservice' : validateNameForPathComponent "service" service' = .ok ()) :
    unitNameForRun run service = unitNameForRun run' service'
      ↔ Alike run run' ∧ Alike service service' := by
  rw [← sanitizeEnvKey_eq_iff hrun hrun', ← sanitizeEnvKey_eq_iff hservice hservice']
  constructor
  · intro h
    have h := congrArg String.toList h
    rw [unitNameForRun_toList, unitNameForRun_toList] at h
    -- the first '-' after the fixed text ends the run
    obtain ⟨hruns, hrest⟩ := cut_at (no_dash hrun) (no_dash hrun') (List.append_cancel_left h)
    exact ⟨String.toList_inj.mp hruns, String.toList_inj.mp (List.append_cancel_right hrest)⟩
  · rintro ⟨hruns, hservices⟩
    rw [← String.toList_inj, unitNameForRun_toList, unitNameForRun_toList, hruns, hservices]

/-! ## Injected variables -/

/-- The fixed texts of a family, before the sanitized name and after it. -/
def keyParts : KeyFamily → String × String
  | .port => ("DEV_PORT_", "")
  | .url => ("DEV_URL_", "")
  | .listenPort => ("DEV_LISTEN_PORT_", "")
  | .depPort => ("DEV_DEP_", "_PORT")
  | .depUrl => ("DEV_DEP_", "_URL")

theorem injectedKey_toList (family : KeyFamily) (service : String) :
    (injectedKey family service).toList
      = (keyParts family).1.toList ++ ((sanitizeEnvKey service).toList
          ++ (keyParts family).2.toList) := by
  delta injectedKey
  cases family <;> simp only [keyParts, String.toList_append, toString, List.append_assoc,
    String.toList_empty, List.append_nil]

/-- A variable tells which family it is of. -/
theorem family_of_injectedKey {family family' : KeyFamily} {service service' : String}
    (h : injectedKey family service = injectedKey family' service') : family = family' := by
  have h := congrArg String.toList h
  rw [injectedKey_toList, injectedKey_toList] at h
  -- the families differ in the fifth character, the two of a dependency in the last
  have hfifth := congrArg (fun cs => cs[4]?) h
  have hlast := congrArg (fun cs => cs.reverse[0]?) h
  cases family <;> cases family' <;> first
    | rfl
    | (simp [keyParts] at hfifth; done)
    | simp [keyParts] at hlast

theorem injectedKey_eq_iff {family family' : KeyFamily} {service service' : String} :
    injectedKey family service = injectedKey family' service'
      ↔ family = family' ∧ sanitizeEnvKey service = sanitizeEnvKey service' := by
  constructor
  · intro h
    obtain rfl := family_of_injectedKey h
    have h := congrArg String.toList h
    rw [injectedKey_toList, injectedKey_toList] at h
    exact ⟨rfl, String.toList_inj.mp (List.append_cancel_right (List.append_cancel_left h))⟩
  · rintro ⟨rfl, hnames⟩
    rw [← String.toList_inj, injectedKey_toList, injectedKey_toList, hnames]

/-! ## One stack and its globals -/

/-- A service of a stack, or a global beside it. -/
inductive Member where
  | service (name : String)
  | global (name : String)
  deriving DecidableEq, Repr

def Member.name : Member → String
  | .service name => name
  | .global name => name

/-- The services that share the variables of a run: those of its stack and the globals. -/
def Member.In (config : ConfigFile) (stack : StackConfig) : Member → Prop
  | .service name => name ∈ stack.services
  | .global name => ∃ globals, config.globals = some globals ∧ name ∈ globals

/-- No variable is injected for two of them. -/
def KeysDistinct (config : ConfigFile) (stack : StackConfig) : Prop :=
  ∀ m m' : Member, m.In config stack → m'.In config stack → m ≠ m' →
    ∀ family family' : KeyFamily, injectedKey family m.name ≠ injectedKey family' m'.name

/-- No two of them have names that are alike. -/
def NamesUnalike (config : ConfigFile) (stack : StackConfig) : Prop :=
  ∀ m m' : Member, m.In config stack → m'.In config stack → m ≠ m' → ¬ Alike m.name m'.name

theorem member_accepted {config : ConfigFile} (h : acceptConfig config = .ok ())
    {stackName : String} {stack : StackConfig}
    (hstack : config.stackConfigs[stackName]? = some stack) {m : Member} (hm : m.In config stack) :
    validateNameForPathComponent "service" m.name = .ok () := by
  cases m with
  | service name => exact stack_name_accepted h hstack hm
  | global name =>
      obtain ⟨globals, hglobals, hname⟩ := hm
      exact global_name_accepted h hglobals hname

theorem keysDistinct_iff {config : ConfigFile} (h : acceptConfig config = .ok ())
    {stackName : String} {stack : StackConfig}
    (hstack : config.stackConfigs[stackName]? = some stack) :
    KeysDistinct config stack ↔ NamesUnalike config stack := by
  constructor
  · intro hdistinct m m' hm hm' hne halike
    refine hdistinct m m' hm hm' hne .port .port (injectedKey_eq_iff.mpr ⟨rfl, ?_⟩)
    exact (sanitizeEnvKey_eq_iff (member_accepted h hstack hm) (member_accepted h hstack hm')).mpr halike
  · intro hunalike m m' hm hm' hne family family' hkey
    refine hunalike m m' hm hm' hne ?_
    exact (sanitizeEnvKey_eq_iff (member_accepted h hstack hm) (member_accepted h hstack hm')).mp
      (injectedKey_eq_iff.mp hkey).2

/-- **WHEN THE NAMES ARE INJECTIVE.**  Two pairs of a run and a service share a unit
    exactly if both names are alike; the variables of a stack and its globals are
    distinct exactly if no two of their names are alike. -/
theorem names_injective_iff {run run' service service' : String}
    (hrun : validateNameForPathComponent "run id" run = .ok ())
    (hrun' : validateNameForPathComponent "run id" run' = .ok ())
    (hservice : validateNameForPathComponent "service" service = .ok ())
    (hservice' : validateNameForPathComponent "service" service' = .ok ())
    {config : ConfigFile} {stackName : String} {stack : StackConfig}
    (hconfig : acceptConfig config = .ok ())
    (hstack : config.stackConfigs[stackName]? = some stack) :
    (((run, service) ≠ (run', service') →
        unitNameForRun run service ≠ unitNameForRun run' service')
      ↔ ((run, service) ≠ (run', service') → ¬ (Alike run run' ∧ Alike service service')))
    ∧ (KeysDistinct config stack ↔ NamesUnalike config stack) := by
  constructor
  · rw [← unitNameForRun_eq_iff hrun hrun' hservice hservice']
  · exact keysDistinct_iff hconfig hstack

def twoServicesStack (first second : String) : StackConfig :=
  ⟨((∅ : BTreeMap ServiceConfig).insert first (.ofCmd "run" [])).insert second (.ofCmd "run" [])⟩

/-- A stack of two services beside one global. -/
def twoServices (first second global : String) : ConfigFile where
  version := 1
  stackConfigs := (∅ : BTreeMap StackConfig).insert "dev" (twoServicesStack first second)
  defaultStack := none
  globals := some ((∅ : BTreeMap ServiceConfig).insert global (.ofCmd "run" []))
  tasks := none
  env := ∅
  envFile := none

/-- Names that no sanitizing confuses: two units, and no shared variable. -/
theorem names_injective_iff_apiWeb :
    unitNameForRun "dev-1" "api" ≠ unitNameForRun "dev-1" "web"
      ∧ KeysDistinct (twoServices "api" "web" "db") (twoServicesStack "api" "web") := by
  have hrun : validateNameForPathComponent "run id" "dev-1" = .ok () := by decide
  have hapi : validateNameForPathComponent "service" "api" = .ok () := by decide
  have hweb : validateNameForPathComponent "service" "web" = .ok () := by decide
  have hconfig : acceptConfig (twoServices "api" "web" "db") = .ok () := by decide
  have hstack : (twoServices "api" "web" "db").stackConfigs["dev"]?
      = some (twoServicesStack "api" "web") := by simp [twoServices]
  obtain ⟨hunits, hkeys⟩ := names_injective_iff hrun hrun hapi hweb hconfig hstack
  refine ⟨hunits.mpr ?_ (by decide), hkeys.mpr ?_⟩
  · rintro - ⟨-, halike⟩
    exact absurd halike (by rw [Alike]; decide)
  · have hname : ∀ m : Member, m.In (twoServices "api" "web" "db") (twoServicesStack "api" "web") →
        m = .service "api" ∨ m = .service "web" ∨ m = .global "db" := by
      intro m hm
      cases m with
      | service name =>
          have hm : "web" = name ∨ "api" = name := by
            simpa [Member.In, twoServicesStack] using hm
          rcases hm with rfl | rfl
          · exact .inr (.inl rfl)
          · exact .inl rfl
      | global name =>
          have hm : "db" = name := by simpa [Member.In, twoServices] using hm
          exact .inr (.inr (congrArg _ hm.symm))
    intro m m' hm hm' hne
    rcases hname m hm with rfl | rfl | rfl <;> rcases hname m' hm' with rfl | rfl | rfl <;> first
      | exact absurd rfl hne
      | (rw [Alike]; decide)

/-- Names that differ in a character the sanitizing drops: "a-b" and "a_b" are both
    accepted, run as one unit and are given one set of variables. -/
theorem dash_and_underscore_clash :
    validateNameForPathComponent "run id" "dev-1" = .ok ()
      ∧ validateNameForPathComponent "service" "a-b" = .ok ()
      ∧ validateNameForPathComponent "service" "a_b" = .ok ()
      ∧ unitNameForRun "dev-1" "a-b" = unitNameForRun "dev-1" "a_b"
      ∧ acceptConfig (twoServices "a-b" "a_b" "db") = .ok ()
      ∧ (twoServices "a-b" "a_b" "db").stackConfigs["dev"]? = some (twoServicesStack "a-b" "a_b")
      ∧ ¬ KeysDistinct (twoServices "a-b" "a_b" "db") (twoServicesStack "a-b" "a_b") := by
  refine ⟨by decide, by decide, by decide, by decide, by decide, by simp [twoServices], ?_⟩
  intro hdistinct
  exact hdistinct (.service "a-b") (.service "a_b") (by simp [Member.In, twoServicesStack])
    (by simp [Member.In, twoServicesStack]) (by decide) .port .port (by decide)

end DevstackNames
