import Devstack.Prepare

/-! # Environment references — the scan of a text against its tokens

    `resolve_env_vars` of `src/config/env.rs` walks over a text with one character of
    look-ahead.  Here the text is cut into tokens first: a `$NAME`, a closed `${NAME}`, or a
    character of its own, and each reference is replaced by itself.

    * `tokens_text`: the tokens spell the text;
    * `resolveScan_braced`, `resolveScan_open`, `resolveScan_bare`: what the scan makes of
      each form;
    * `resolves_iff`: so the scan and the tokens agree exactly if the first `${` without a
      `}` behind it, when there is one, names no variable together with all that follows
      and no reference behind it is replaced. -/

namespace DevstackEnvVars

open DevstackPrepare

-- ── tokens ────────────────────────────────────────────────────────────────────

/-- ASCII letters, digits and underscores. -/
def isNameChar (c : Char) : Bool := c.isAlphanum || c == '_'

inductive Token where
  | char (c : Char)
  /-- `$NAME`. -/
  | bare (name : List Char)
  /-- `${NAME}`. -/
  | braced (name : List Char)
  deriving DecidableEq, Repr

def Token.text : Token → List Char
  | .char c => [c]
  | .bare name => '$' :: name
  | .braced name => '$' :: '{' :: (name ++ ['}'])

theorem dropWhile_length_le (p : Char → Bool) (cs : List Char) :
    (cs.dropWhile p).length ≤ cs.length := (List.dropWhile_suffix p).length_le

/-- The references of a text, each as long as it can be, and the characters between them. -/
def tokens : List Char → List Token
  | [] => []
  | '$' :: '{' :: cs =>
      if '}' ∈ cs then
        .braced (cs.takeWhile (· ≠ '}')) :: tokens ((cs.dropWhile (· ≠ '}')).drop 1)
      else .char '$' :: .char '{' :: tokens cs
  | '$' :: cs =>
      if cs.takeWhile isNameChar = [] then .char '$' :: tokens cs
      else .bare (cs.takeWhile isNameChar) :: tokens (cs.dropWhile isNameChar)
  | c :: cs => .char c :: tokens cs
termination_by cs => cs.length
decreasing_by
  · have hle := dropWhile_length_le (fun c => decide (c ≠ '}')) cs
    rw [List.length_drop, List.length_cons, List.length_cons]
    omega
  · rw [List.length_cons, List.length_cons]
    omega
  · rw [List.length_cons]
    omega
  · have hle := dropWhile_length_le isNameChar cs
    rw [List.length_cons]
    omega
  · rw [List.length_cons]
    omega

section Resolve

variable (vars : String → Option String)

/-- A reference to a defined variable is its value, everything else is itself. -/
def Token.value : Token → List Char
  | .char c => [c]
  | .bare name => ((vars (String.ofList name)).map String.toList).getD (Token.bare name).text
  | .braced name => ((vars (String.ofList name)).map String.toList).getD (Token.braced name).text

def expand (text : List Char) : List Char := (tokens text).flatMap (Token.value vars)

/-- What follows the first `${` that has no `}` behind it. -/
def openTail : List Char → Option (List Char)
  | [] => none
  | '$' :: '{' :: cs => if '}' ∈ cs then openTail cs else some cs
  | _ :: cs => openTail cs

/-- No variable is named by what follows an open `${`, and nothing in it is replaced; or
    the variable's value is the very text that stands there with the references replaced. -/
def LeftAlone (tail : List Char) : Prop :=
  match vars (String.ofList tail) with
  | none => expand vars tail = tail
  | some value => value.toList = '$' :: '{' :: expand vars tail

/-- The `${` that is not closed, if the text has one, is left alone. -/
def OpenLeftAlone (text : List Char) : Prop := ∀ tail, openTail text = some tail → LeftAlone vars tail

section Equations

-- of the scan, made here for all proofs below
attribute [local simp] resolveScan

end Equations

/-! ## The tokens -/

theorem dropWhile_brace {cs : List Char} (h : '}' ∈ cs) :
    cs.dropWhile (· ≠ '}') = '}' :: (cs.dropWhile (· ≠ '}')).drop 1 := by
  induction cs with
  | nil => exact nomatch h
  | cons c cs ih =>
      by_cases hc : c = '}'
      · subst hc
        rfl
      · have hmem : '}' ∈ cs := (List.mem_cons.mp h).resolve_left (Ne.symm hc)
        rw [List.dropWhile_cons_of_pos (by simpa using hc)]
        exact ih hmem

/-- A text with a brace, cut at the first one. -/
theorem cut_brace {cs : List Char} (h : '}' ∈ cs) :
    cs.takeWhile (· ≠ '}') ++ '}' :: (cs.dropWhile (· ≠ '}')).drop 1 = cs := by
  rw [← dropWhile_brace h, List.takeWhile_append_dropWhile]

/-- **THE TOKENS SPELL THE TEXT**: nothing is lost and nothing is read twice. -/
theorem tokens_text (text : List Char) : (tokens text).flatMap Token.text = text := by
  induction text using tokens.induct with
  | case1 => rw [tokens]; rfl
  | case2 cs hmem ih =>
      rw [tokens, if_pos hmem, List.flatMap_cons, ih]
      show '$' :: '{' :: ((cs.takeWhile _ ++ ['}']) ++ _) = _
      rw [List.append_assoc]
      exact congrArg (fun rest => '$' :: '{' :: rest) (cut_brace hmem)
  | case3 cs hmem ih =>
      rw [tokens, if_neg hmem, List.flatMap_cons, List.flatMap_cons, ih]
      rfl
  | case4 cs hbrace hnil ih =>
      rw [tokens, if_pos hnil, List.flatMap_cons, ih]
      · rfl
      · exact hbrace
  | case5 cs hbrace hname ih =>
      rw [tokens, if_neg hname, List.flatMap_cons, ih]
      · exact congrArg ('$' :: ·) List.takeWhile_append_dropWhile
      · exact hbrace
  | case6 c cs hbrace hdollar ih =>
      rw [tokens, List.flatMap_cons, ih]
      · rfl
      · exact hbrace
      · exact hdollar

/-! ## The scan -/

variable {vars}

/-- A name between braces. -/
theorem resolveScan_braced (seen : List Char) {name : List Char} (h : '}' ∉ name)
    (cs : List Char) :
    resolveScan vars (.braced seen) (name ++ '}' :: cs)
      = bracedValue vars (seen ++ name) true ++ resolveScan vars .text cs := by
  induction name generalizing seen with
  | nil =>
      rw [List.append_nil, List.nil_append]
      rfl
  | cons c name ih =>
      have hc : c ≠ '}' := fun hc => h (hc ▸ List.mem_cons_self)
      have hname : '}' ∉ name := fun hmem => h (List.mem_cons_of_mem c hmem)
      rw [List.cons_append, resolveScan, ih (seen ++ [c]) hname, List.append_assoc,
        List.singleton_append]
      exact hc

/-- Braces that are not closed take everything. -/
theorem resolveScan_open (seen : List Char) {cs : List Char} (h : '}' ∉ cs) :
    resolveScan vars (.braced seen) cs = bracedValue vars (seen ++ cs) false := by
  induction cs generalizing seen with
  | nil =>
      rw [List.append_nil]
      rfl
  | cons c cs ih =>
      have hc : c ≠ '}' := fun hc => h (hc ▸ List.mem_cons_self)
      rw [resolveScan, ih (seen ++ [c]) (fun hmem => h (List.mem_cons_of_mem c hmem)),
        List.append_assoc, List.singleton_append]
      exact hc

/-- Without a further character of the name the scan goes on with the text. -/
theorem resolveScan_end {name cs : List Char} (h : cs.takeWhile isNameChar = []) :
    resolveScan vars (.bare name) cs = bareValue vars name ++ resolveScan vars .text cs := by
  cases cs with
  | nil =>
      show bareValue vars name = bareValue vars name ++ []
      rw [List.append_nil]
  | cons c cs =>
      have hc : (c.isAlphanum || c == '_') = false := by
        cases hname : isNameChar c with
        | false => exact hname
        | true =>
            rw [List.takeWhile_cons_of_pos hname] at h
            exact nomatch h
      by_cases hdollar : c = '$'
      · subst hdollar
        cases cs with
        | nil => rfl
        | cons d ds =>
            by_cases hbrace : d = '{'
            · subst hbrace
              rfl
            · rw [resolveScan, resolveScan]
              · exact fun cs' heq => hbrace (List.cons.inj heq).1
              · exact fun cs' heq => hbrace (List.cons.inj heq).1
      · rw [resolveScan, resolveScan, hc, if_neg Bool.false_ne_true]
        · exact fun cs' heq => absurd heq hdollar
        · exact hdollar
        · exact fun cs' heq => absurd heq hdollar
        · exact hdollar

theorem resolveScan_bare (seen : List Char) {name : List Char}
    (hname : ∀ c ∈ name, isNameChar c = true) {cs : List Char} (h : cs.takeWhile isNameChar = []) :
    resolveScan vars (.bare seen) (name ++ cs)
      = bareValue vars (seen ++ name) ++ resolveScan vars .text cs := by
  induction name generalizing seen with
  | nil => rw [List.nil_append, List.append_nil, resolveScan_end h]
  | cons c name ih =>
      have hc : (c.isAlphanum || c == '_') = true := hname c List.mem_cons_self
      have hdollar : c ≠ '$' := by
        rintro rfl
        exact absurd hc (by decide)
      rw [List.cons_append, resolveScan, hc, if_pos rfl,
        ih (seen ++ [c]) (fun d hd => hname d (List.mem_cons_of_mem c hd)), List.append_assoc,
        List.singleton_append]
      · exact fun cs' heq => absurd heq hdollar
      · exact hdollar

/-! ## The open reference -/

/-- A character that does not begin braces is passed over. -/
theorem openTail_cons {c : Char} {cs : List Char} (h : ∀ ds, c = '$' → cs ≠ '{' :: ds) :
    openTail (c :: cs) = openTail cs := by
  rw [openTail]
  rintro ds rfl rfl
  exact h ds rfl rfl

/-- What stands in front of a closing brace does not matter. -/
theorem openTail_closed (xs cs : List Char) : openTail (xs ++ '}' :: cs) = openTail cs := by
  induction hn : xs.length using Nat.strong_induction_on generalizing xs with
  | _ n ih =>
      cases xs with
      | nil => exact openTail_cons fun ds hdollar => absurd hdollar (by decide)
      | cons c xs =>
          rw [List.length_cons] at hn
          have hrest := ih xs.length (by omega) xs rfl
          by_cases hopen : ∃ ds, c = '$' ∧ xs = '{' :: ds
          · obtain ⟨ds, rfl, rfl⟩ := hopen
            rw [List.length_cons] at hn
            show (if '}' ∈ ds ++ '}' :: cs then openTail (ds ++ '}' :: cs) else _) = _
            rw [if_pos (List.mem_append_right ds List.mem_cons_self), ih ds.length (by omega) ds rfl]
          · rw [List.cons_append, openTail_cons, hrest]
            intro ds hdollar hds
            cases xs with
            | nil => exact absurd (List.cons.inj hds).1 (by decide)
            | cons d xs => exact hopen ⟨xs, hdollar, by rw [(List.cons.inj hds).1]⟩

/-- Nor do the characters of a name. -/
theorem openTail_name {name : List Char} (hname : ∀ c ∈ name, isNameChar c = true)
    (cs : List Char) : openTail (name ++ cs) = openTail cs := by
  induction name with
  | nil => rfl
  | cons c name ih =>
      rw [List.cons_append, openTail_cons, ih (fun d hd => hname d (List.mem_cons_of_mem c hd))]
      rintro ds rfl -
      exact absurd (hname _ List.mem_cons_self) (by decide)

/-! ## The scan and the tokens -/

theorem value_bare {name : List Char} (h : name ≠ []) :
    bareValue vars name = (Token.bare name).value vars := by
  rw [bareValue, if_neg h, Token.value]
  cases vars (String.ofList name) <;> rfl

theorem value_braced (name : List Char) :
    bracedValue vars name true = (Token.braced name).value vars := by
  rw [bracedValue, Token.value]
  cases vars (String.ofList name) <;> rfl

theorem takeWhile_self {p : Char → Bool} (cs : List Char) : ∀ c ∈ cs.takeWhile p, p c = true :=
  fun _ hc => List.mem_takeWhile_imp hc

theorem takeWhile_dropWhile (p : Char → Bool) (cs : List Char) :
    (cs.dropWhile p).takeWhile p = [] := by
  cases hdrop : cs.dropWhile p with
  | nil => rfl
  | cons c rest =>
      have hc := List.head?_dropWhile_not p cs
      rw [hdrop] at hc
      exact List.takeWhile_cons_of_neg (by simpa using hc)

variable (vars) in
/-- **THE SCAN MEETS THE TOKENS**: every reference to a defined variable is replaced by its
    value and every other character stays as it is, if and only if the open `${` is left
    alone. -/
theorem resolveScan_iff (text : List Char) :
    resolveScan vars .text text = expand vars text ↔ OpenLeftAlone vars text := by
  induction text using tokens.induct with
  | case1 =>
      rw [expand, tokens]
      exact ⟨fun _ tail htail => (nomatch htail), fun _ => rfl⟩
  | case2 cs hmem ih =>
      have hclosed : '}' ∉ cs.takeWhile (· ≠ '}') :=
        fun h => absurd rfl (of_decide_eq_true (takeWhile_self cs _ h))
      have htail : openTail ('$' :: '{' :: cs) = openTail ((cs.dropWhile (· ≠ '}')).drop 1) := by
        show (if '}' ∈ cs then openTail cs else _) = _
        rw [if_pos hmem]
        conv_lhs => rw [← cut_brace hmem]
        rw [openTail_closed]
      have hscan : resolveScan vars .text ('$' :: '{' :: cs)
          = bracedValue vars (cs.takeWhile (· ≠ '}')) true
            ++ resolveScan vars .text ((cs.dropWhile (· ≠ '}')).drop 1) := by
        show resolveScan vars (.braced []) cs = _
        conv_lhs => rw [← cut_brace hmem]
        rw [resolveScan_braced [] hclosed, List.nil_append]
      rw [hscan, expand, tokens, if_pos hmem, List.flatMap_cons, value_braced,
        List.append_cancel_left_eq, OpenLeftAlone, htail]
      exact ih
  | case3 cs hmem ih =>
      have htail : openTail ('$' :: '{' :: cs) = some cs := if_neg hmem
      have hscan : resolveScan vars .text ('$' :: '{' :: cs) = bracedValue vars cs false :=
        resolveScan_open [] hmem
      have hexpand : expand vars ('$' :: '{' :: cs) = '$' :: '{' :: expand vars cs := by
        rw [expand, tokens, if_neg hmem]
        rfl
      have halone : OpenLeftAlone vars ('$' :: '{' :: cs) ↔ LeftAlone vars cs := by
        rw [OpenLeftAlone, htail]
        exact ⟨fun h => h cs rfl, fun h tail heq => Option.some.inj heq ▸ h⟩
      rw [hscan, hexpand, halone, bracedValue, LeftAlone]
      cases vars (String.ofList cs) with
      | none =>
          show '$' :: '{' :: (cs ++ []) = _ ↔ _
          rw [List.append_nil, List.cons_inj_right, List.cons_inj_right]
          exact eq_comm
      | some value => exact Iff.rfl
  | case4 cs hbrace hnil ih =>
      have htail : openTail ('$' :: cs) = openTail cs :=
        openTail_cons fun ds _ hds => hbrace ds hds
      have hscan : resolveScan vars .text ('$' :: cs) = '$' :: resolveScan vars .text cs := by
        rw [resolveScan, resolveScan_end hnil]
        · rfl
        · exact hbrace
      rw [hscan, expand, tokens, if_pos hnil, List.flatMap_cons, OpenLeftAlone, htail]
      · exact (List.cons_inj_right '$').trans ih
      · exact hbrace
  | case5 cs hbrace hname ih =>
      have hchars := takeWhile_self (p := isNameChar) cs
      have htail : openTail ('$' :: cs) = openTail (cs.dropWhile isNameChar) := by
        rw [openTail_cons fun ds _ hds => hbrace ds hds]
        conv_lhs => rw [← List.takeWhile_append_dropWhile (p := isNameChar) (l := cs)]
        rw [openTail_name hchars]
      have hscan : resolveScan vars .text ('$' :: cs)
          = bareValue vars (cs.takeWhile isNameChar)
            ++ resolveScan vars .text (cs.dropWhile isNameChar) := by
        rw [resolveScan]
        · conv_lhs => rw [← List.takeWhile_append_dropWhile (p := isNameChar) (l := cs)]
          rw [resolveScan_bare [] hchars (takeWhile_dropWhile isNameChar cs), List.nil_append]
        · exact hbrace
      rw [hscan, expand, tokens, if_neg hname, List.flatMap_cons, value_bare hname,
        List.append_cancel_left_eq, OpenLeftAlone, htail]
      · exact ih
      · exact hbrace
  | case6 c cs hbrace hdollar ih =>
      have htail : openTail (c :: cs) = openTail cs :=
        openTail_cons fun ds hc => absurd hc hdollar
      have hscan : resolveScan vars .text (c :: cs) = c :: resolveScan vars .text cs := by
        rw [resolveScan]
        · exact hbrace
        · exact hdollar
      rw [hscan, expand, tokens, List.flatMap_cons, OpenLeftAlone, htail]
      · exact (List.cons_inj_right c).trans ih
      · exact hbrace
      · exact hdollar

end Resolve

/-- `resolve_env_vars` of every text, in every environment. -/
theorem resolves_iff (vars : String → Option String) (value : String) :
    resolveEnvVars vars value = String.ofList (expand vars value.toList)
      ↔ OpenLeftAlone vars value.toList := by
  rw [resolveEnvVars, String.ofList_inj, resolveScan_iff]

/-- An environment with one variable. -/
def homeVars : String → Option String := fun name => if name = "HOME" then some "/root" else none

/-- With `HOME` set, `${HOME` becomes its value, though the brace is not closed. -/
theorem open_reference_replaced :
    resolveEnvVars homeVars "$\x7bHOME"
      ≠ String.ofList (expand homeVars "$\x7bHOME".toList) := by
  have hexpand : expand homeVars "$\x7bHOME".toList = "$\x7bHOME".toList := by
    simp [expand, tokens, Token.value]
  rw [hexpand]
  decide

end DevstackEnvVars
