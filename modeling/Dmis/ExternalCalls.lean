import Dmis.Lib.Urls

/-!
# Calls of external services

`SafeApiClient` (`app/security/safe_api_client.py:170-295`) checks a URL against the allowlist and hands it to
`requests`. The list is looked up with the authority up to its first colon (`:88-112`), once, before the first attempt.

| here | there |
| --- | --- |
| `validateExternalDomain` | `validate_external_domain` |
| `Client.new`, `Client.makeRequest` | `SafeApiClient.__init__`, `_make_request` |
| `follow` | `session.request`: the URL and the redirects it follows, at most `max_redirects` |
| `Net` | the servers; an answer may depend on the attempt and the number of redirects before it |

The host is the one of RFC 3986 (`rfcHost`), of the authority in lower case as the check reads it. Main theorem
`calls_stay_iff`: whatever the servers answer, only hosts on the list are contacted exactly when the host of the URL is
not hidden behind a colon or a bracket and no redirect is followed; and when the servers on the list redirect only
among themselves, the first of the two is all that matters.
-/

namespace Dmis

namespace ExternalCalls

open Urls

def allowedExternalDomains : List Text :=
  ["api.exchangerate.host", "api.frankfurter.dev", "api.exchangeratesapi.io"].map String.toList

/-- An allowed domain or a subdomain of one. -/
def Allowed (domain : Text) : Prop :=
  ∃ allowed ∈ allowedExternalDomains, domain = allowed ∨ '.' :: allowed <:+ domain

instance : DecidablePred Allowed := fun _ => by unfold Allowed; infer_instance

/-- `netlocOk` are the checks of an authority in `urlparse`, `lower` is `str.lower`. -/
structure Library where
  netlocOk : Text → Bool
  lower : Text → Text
  lower_ascii : ∀ s : Text, (∀ c ∈ s, c.toNat < 128) → lower s = s.map Char.toLower

def validateExternalDomain (lib : Library) (url : Text) : Bool :=
  match urlparse lib.netlocOk url [] with
  | none => false
  | some parsed => decide (Allowed ((lib.lower parsed.netloc).takeWhile (· ≠ ':')))

/-- The exceptions of `requests` after which the next attempt is made. -/
inductive Fault where
  | timeout
  | connection
  | request
  deriving DecidableEq

inductive ApiError where
  | validation
  | afterRetries
  | failed (e : Fault)
  deriving DecidableEq

/-! ## The session -/

/-- What a server does with one request. -/
inductive Answer (ρ : Type) where
  | response (r : ρ)
  /-- A redirect, with its target resolved. -/
  | redirect (target : Text)
  | fail (e : Fault)

/-- The answer in an attempt, after a number of redirects, for a URL. -/
abbrev Net (ρ : Type) := ℕ → ℕ → Text → Answer ρ

/-- `max_redirects` of the session, and whether it follows redirects. -/
structure Client where
  baseUrl : Text
  retries : ℕ
  maxRedirects : ℕ
  allowRedirects : Bool

/-- The slashes at the end of the base are taken off. -/
def Client.new (baseUrl : Text) (retries maxRedirects : ℕ) (allowRedirects : Bool) : Client where
  baseUrl := baseUrl.rdropWhile (· = '/')
  retries := retries
  maxRedirects := maxRedirects
  allowRedirects := allowRedirects

/-- How an attempt ends. -/
inductive Outcome (ρ : Type) where
  | response (r : Option ρ)
  | tooManyRedirects
  | fail (e : Fault)

section
variable {ρ : Type}

/-- One attempt: the URLs that are contacted and the end. `left` redirects may still be followed. A redirect that is
not followed is the response. -/
def follow (net : ℕ → Text → Answer ρ) (allowRedirects : Bool) : ℕ → ℕ → Text → List Text × Outcome ρ
  | 0, hop, url =>
    match net hop url with
    | .response r => ([url], .response (some r))
    | .fail e => ([url], .fail e)
    | .redirect _ => ([url], if allowRedirects then .tooManyRedirects else .response none)
  | left + 1, hop, url =>
    match net hop url with
    | .response r => ([url], .response (some r))
    | .fail e => ([url], .fail e)
    | .redirect target =>
      if allowRedirects then
        let rest := follow net allowRedirects left (hop + 1) target
        (url :: rest.1, rest.2)
      else ([url], .response none)

/-- The loop over the attempts that are left. -/
def attempts (send : ℕ → List Text × Outcome ρ) : ℕ → ℕ → ApiError → List Text × Except ApiError (Option ρ)
  | 0, _, lastError => ([], .error lastError)
  | left + 1, attempt, _ =>
    match send attempt with
    | (urls, .response r) => (urls, .ok r)
    | (urls, .tooManyRedirects) => (urls, .error .validation)
    | (urls, .fail e) =>
      let rest := attempts send left (attempt + 1) (.failed e)
      (urls ++ rest.1, rest.2)

def Client.url (c : Client) (endpoint : Text) : Text := c.baseUrl ++ endpoint

/-- The URLs that are contacted, in order, and the result. -/
def Client.makeRequest (lib : Library) (net : Net ρ) (c : Client) (endpoint : Text) :
    List Text × Except ApiError (Option ρ) :=
  if validateExternalDomain lib (c.url endpoint) then
    attempts (fun attempt => follow (net attempt) c.allowRedirects c.maxRedirects 0 (c.url endpoint)) c.retries 0 .afterRetries
  else ([], .error .validation)

end

/-! ## Hosts -/

/-- The authority as the check and a session read it. -/
def authorityOf (lib : Library) (url : Text) : Text := lib.lower (rfcAuthority (pythonClean url))

def host (lib : Library) (url : Text) : Text := rfcHost (authorityOf lib url)

/-- The host stands where the check looks for it: no bracket opens it, and no at sign behind the first colon makes
another host of it. -/
def InSight (auth : Text) : Prop :=
  (hostText auth).head? ≠ some '[' ∧ ('@' ∈ auth.dropWhile (· ≠ ':') → Allowed (rfcHost auth))

/-- A request goes out. -/
def Sent (lib : Library) (c : Client) (endpoint : Text) : Prop :=
  validateExternalDomain lib (c.url endpoint) = true ∧ c.retries ≠ 0

theorem allowed_chars : ∀ allowed ∈ allowedExternalDomains, allowed ≠ [] ∧ '@' ∉ allowed ∧ ']' ∉ allowed := by decide

theorem not_allowed_nil : ¬ Allowed [] := by decide

/-- A domain on the list ends as an entry does. -/
theorem Allowed.exists_suffix {d : Text} (h : Allowed d) : ∃ allowed ∈ allowedExternalDomains, allowed <:+ d := by
  obtain ⟨allowed, hmem, rfl | hsuffix⟩ := h
  · exact ⟨d, hmem, List.suffix_rfl⟩
  · exact ⟨allowed, hmem, (List.suffix_cons '.' allowed).trans hsuffix⟩

theorem not_allowed_bracket (x : Text) : ¬ Allowed (x ++ [']']) := by
  intro h
  obtain ⟨allowed, hmem, y, hy⟩ := h.exists_suffix
  obtain ⟨hne, -, hbracket⟩ := allowed_chars allowed hmem
  have hlast : (y ++ allowed).getLast? = some ']' := by rw [hy, List.getLast?_append]; rfl
  rw [List.getLast?_append_of_ne_nil y hne] at hlast
  exact hbracket (List.mem_of_getLast? hlast)

/-- The user info does not take a domain off the list. -/
theorem Allowed.hostText {d : Text} (h : Allowed d) : Allowed (hostText d) := by
  obtain ⟨allowed, hmem, rfl | ⟨x, rfl⟩⟩ := h
  · rw [hostText_of_notMem (allowed_chars d hmem).2.1]
    exact ⟨d, hmem, .inl rfl⟩
  · have hat : '@' ∉ '.' :: allowed := by simp [(allowed_chars allowed hmem).2.1]
    rw [hostText_append hat]
    exact ⟨allowed, hmem, .inr (List.suffix_append ..)⟩

theorem dropWhile_head_colon (s : Text) : s.dropWhile (· ≠ ':') = [] ∨ ∃ tl, s.dropWhile (· ≠ ':') = ':' :: tl := by
  cases h : s.dropWhile (· ≠ ':') with
  | nil => exact .inl rfl
  | cons c tl =>
    have hc := List.head?_dropWhile_not (fun c : Char => decide (c ≠ ':')) s
    rw [h] at hc
    simp at hc
    exact .inr ⟨tl, by rw [hc]⟩

/-- **The host of an authority the check lets pass** is on the list exactly when it is in sight. -/
theorem allowed_rfcHost_iff {auth : Text} (h : Allowed (auth.takeWhile (· ≠ ':'))) :
    Allowed (rfcHost auth) ↔ InSight auth := by
  by_cases hbracket : (Urls.hostText auth).head? = some '['
  · have hhost : rfcHost auth = (Urls.hostText auth).takeWhile (· ≠ ']') ++ [']'] := by
      unfold rfcHost
      exact if_pos hbracket
    constructor
    · intro ha
      rw [hhost] at ha
      exact absurd ha (not_allowed_bracket _)
    · intro hin
      exact absurd hbracket hin.1
  · constructor
    · intro ha
      exact ⟨hbracket, fun _ => ha⟩
    · rintro ⟨-, hin⟩
      by_cases hat : '@' ∈ auth.dropWhile (· ≠ ':')
      · exact hin hat
      · have hhost : rfcHost auth = (Urls.hostText auth).takeWhile (· ≠ ':') := by
          unfold rfcHost
          exact if_neg hbracket
        have hsplit := List.takeWhile_append_dropWhile (p := fun c : Char => decide (c ≠ ':')) (l := auth)
        have hd : ∀ c ∈ auth.takeWhile (· ≠ ':'), (decide (c ≠ ':')) = true := fun _ hc =>
          List.mem_takeWhile_imp (p := fun c : Char => decide (c ≠ ':')) hc
        rw [hhost, ← hsplit, hostText_append hat]
        have hsub : ∀ c ∈ Urls.hostText (auth.takeWhile (· ≠ ':')), (decide (c ≠ ':')) = true := by
          intro c hc
          exact hd c ((List.rtakeWhile_suffix ..).subset hc)
        have hcut : ∀ c ∈ (auth.dropWhile (· ≠ ':')).head?, (decide (c ≠ ':')) = false := by
          intro c hc
          rcases dropWhile_head_colon auth with hnil | ⟨tl, hcons⟩
          · rw [hnil] at hc
            cases hc
          · rw [hcons] at hc
            cases hc
            rfl
        rw [Relational.takeWhile_append_head hsub hcut]
        exact h.hostText

theorem validateExternalDomain_ok {lib : Library} {url : Text} (h : validateExternalDomain lib url = true) :
    Allowed ((authorityOf lib url).takeWhile (· ≠ ':')) := by
  unfold validateExternalDomain at h
  split at h
  · cases h
  · rename_i parsed hparsed
    have ha := of_decide_eq_true h
    have hnetloc := (urlparse_eq hparsed).2
    have hne : parsed.netloc ≠ [] := by
      intro hnil
      rw [hnil, lib.lower_ascii [] (by simp)] at ha
      exact not_allowed_nil ha
    rw [hnetloc] at hne
    unfold authorityOf
    rwa [rfcAuthority_eq hne, ← hnetloc]

/-! ## The URLs that are contacted -/

section
variable {ρ : Type} {net : ℕ → Text → Answer ρ} {allow : Bool} {left : ℕ} {p : Text → Prop}

theorem mem_follow (net : ℕ → Text → Answer ρ) (allow : Bool) (left hop : ℕ) (url : Text) :
    url ∈ (follow net allow left hop url).1 := by
  cases left with
  | zero =>
    unfold follow
    split <;> simp
  | succ left =>
    unfold follow
    split
    · simp
    · simp
    · split <;> simp

/-- **One attempt** contacts what the redirects lead to. -/
theorem follow_invariant (hstep : ∀ hop u target, p u → net hop u = .redirect target → p target) (left hop : ℕ)
    {url : Text} (hurl : p url) : ∀ u ∈ (follow net allow left hop url).1, p u := by
  induction left generalizing hop url with
  | zero =>
    intro u hu
    unfold follow at hu
    split at hu <;> rwa [List.mem_singleton.1 hu]
  | succ left ih =>
    intro u hu
    unfold follow at hu
    split at hu
    · rwa [List.mem_singleton.1 hu]
    · rwa [List.mem_singleton.1 hu]
    · rename_i target hnet
      split at hu
      · rcases List.mem_cons.1 hu with rfl | hu
        · exact hurl
        · exact ih (hop + 1) (hstep hop url target hurl hnet) u hu
      · rwa [List.mem_singleton.1 hu]

/-- Without redirects only the URL itself is contacted. -/
theorem follow_direct (h : allow = false ∨ left = 0) (hop : ℕ) (url : Text) :
    (follow net allow left hop url).1 = [url] := by
  cases left with
  | zero =>
    unfold follow
    split <;> rfl
  | succ left =>
    have hallow : allow = false := h.resolve_right (Nat.succ_ne_zero left)
    unfold follow
    rw [hallow]
    split <;> rfl

/-- A redirect that is followed is contacted. -/
theorem mem_follow_redirect {hop : ℕ} {url target : Text} (hnet : net hop url = .redirect target) (left : ℕ) :
    target ∈ (follow net true (left + 1) hop url).1 := by
  unfold follow
  rw [hnet]
  exact List.mem_cons_of_mem url (mem_follow net true left (hop + 1) target)

theorem attempts_invariant {send : ℕ → List Text × Outcome ρ} (hsend : ∀ attempt, ∀ u ∈ (send attempt).1, p u)
    (left attempt : ℕ) (e : ApiError) : ∀ u ∈ (attempts send left attempt e).1, p u := by
  induction left generalizing attempt e with
  | zero =>
    intro u hu
    cases hu
  | succ left ih =>
    intro u hu
    have hthis := hsend attempt u
    unfold attempts at hu
    split at hu
    · rename_i heq
      exact hthis (by rw [heq]; exact hu)
    · rename_i heq
      exact hthis (by rw [heq]; exact hu)
    · rename_i heq
      rcases List.mem_append.1 hu with hu | hu
      · exact hthis (by rw [heq]; exact hu)
      · exact ih _ _ u hu

theorem mem_attempts {send : ℕ → List Text × Outcome ρ} {u : Text} (attempt : ℕ) (hu : u ∈ (send attempt).1)
    {left : ℕ} (hleft : left ≠ 0) (e : ApiError) : u ∈ (attempts send left attempt e).1 := by
  obtain ⟨left, rfl⟩ := Nat.exists_eq_succ_of_ne_zero hleft
  unfold attempts
  split
  · rename_i heq
    rwa [heq] at hu
  · rename_i heq
    rwa [heq] at hu
  · rename_i heq
    rw [heq] at hu
    exact List.mem_append_left _ hu

end

section
variable {ρ : Type} {lib : Library} {c : Client} {endpoint : Text}

theorem makeRequest_eq (h : Sent lib c endpoint) (net : Net ρ) :
    c.makeRequest lib net endpoint =
      attempts (fun attempt => follow (net attempt) c.allowRedirects c.maxRedirects 0 (c.url endpoint)) c.retries 0
        .afterRetries :=
  if_pos h.1

theorem mem_makeRequest (h : Sent lib c endpoint) (net : Net ρ) :
    c.url endpoint ∈ (c.makeRequest lib net endpoint).1 := by
  rw [makeRequest_eq h]
  exact mem_attempts 0 (mem_follow ..) h.2 _

/-- The host of the URL itself. -/
theorem allowed_host_iff (h : Sent lib c endpoint) :
    Allowed (host lib (c.url endpoint)) ↔ InSight (authorityOf lib (c.url endpoint)) :=
  allowed_rfcHost_iff (validateExternalDomain_ok h.1)

/-- While the servers on the list redirect only among themselves. -/
theorem calls_stay_of_redirects (h : Sent lib c endpoint) {net : Net ρ}
    (hnet : ∀ attempt hop u target, Allowed (host lib u) → net attempt hop u = .redirect target →
      Allowed (host lib target)) :
    (∀ u ∈ (c.makeRequest lib net endpoint).1, Allowed (host lib u)) ↔
      InSight (authorityOf lib (c.url endpoint)) := by
  rw [← allowed_host_iff h]
  constructor
  · intro hall
    exact hall _ (mem_makeRequest h net)
  · intro hurl
    rw [makeRequest_eq h]
    exact attempts_invariant (fun attempt => follow_invariant (hnet attempt) _ _ hurl) _ _ _

/-- A host that is on no list. -/
def elsewhere : Text := "https://elsewhere.example".toList

theorem not_allowed_elsewhere (lib : Library) : ¬ Allowed (host lib elsewhere) := by
  unfold host authorityOf
  rw [lib.lower_ascii _ (Relational.forall_of_all (by decide))]
  decide

/-- **Only hosts on the list are contacted**, whatever the servers answer, exactly when the host of the URL is in sight
and no redirect is followed; between servers that redirect only among themselves the first is enough. -/
theorem calls_stay_iff (h : Sent lib c endpoint) :
    ((∀ net : Net ρ, ∀ u ∈ (c.makeRequest lib net endpoint).1, Allowed (host lib u)) ↔
      InSight (authorityOf lib (c.url endpoint)) ∧ (c.allowRedirects = false ∨ c.maxRedirects = 0)) ∧
    ∀ net : Net ρ, (∀ attempt hop u target, Allowed (host lib u) → net attempt hop u = .redirect target →
        Allowed (host lib target)) →
      ((∀ u ∈ (c.makeRequest lib net endpoint).1, Allowed (host lib u)) ↔
        InSight (authorityOf lib (c.url endpoint))) := by
  refine ⟨?_, fun net hnet => calls_stay_of_redirects h hnet⟩
  rw [← allowed_host_iff h]
  constructor
  · intro hall
    refine ⟨hall (fun _ _ _ => .fail .timeout) _ (mem_makeRequest h _), ?_⟩
    by_contra hfollowed
    rw [not_or, Bool.not_eq_false] at hfollowed
    obtain ⟨left, hleft⟩ := Nat.exists_eq_succ_of_ne_zero hfollowed.2
    -- the first server sends the session elsewhere
    have hmem : elsewhere ∈ (c.makeRequest (ρ := ρ) lib (fun _ _ _ => .redirect elsewhere) endpoint).1 := by
      rw [makeRequest_eq h, hfollowed.1, hleft]
      exact mem_attempts 0 (mem_follow_redirect rfl left) h.2 _
    exact not_allowed_elsewhere lib (hall _ _ hmem)
  · rintro ⟨hurl, hdirect⟩ net
    rw [makeRequest_eq h]
    refine attempts_invariant (fun attempt u hu => ?_) _ _ _
    rw [follow_direct hdirect] at hu
    rwa [List.mem_singleton.1 hu]

end

/-! ## A password and a redirect -/

def asciiLibrary : Library where
  netlocOk _ := true
  lower s := s.map Char.toLower
  lower_ascii _ _ := rfl

/-- A host behind a password, and a server on the list that redirects. -/
theorem calls_leave :
    validateExternalDomain asciiLibrary "https://api.frankfurter.dev:x@evil.example/latest".toList = true ∧
      (∃ u ∈ ((Client.new "https://api.frankfurter.dev:x@evil.example/".toList 3 3 true).makeRequest asciiLibrary
          (fun _ _ _ => Answer.response ()) "/latest".toList).1, ¬ Allowed (host asciiLibrary u)) ∧
      ∃ u ∈ ((Client.new "https://api.frankfurter.dev".toList 3 3 true).makeRequest asciiLibrary
          (fun _ hop _ => if hop = 0 then .redirect elsewhere else .response ()) "/latest".toList).1,
        ¬ Allowed (host asciiLibrary u) := by
  refine ⟨by decide, ?_, ?_⟩
  · exact ⟨"https://api.frankfurter.dev:x@evil.example/latest".toList, by decide, by decide⟩
  · exact ⟨elsewhere, by decide, by decide⟩

theorem calls_stay_iff_latest :
    InSight (authorityOf asciiLibrary "https://api.frankfurter.dev/latest".toList) ∧
      ∀ net : Net Unit, ∀ u ∈ ((Client.new "https://api.frankfurter.dev/".toList 3 0 true).makeRequest asciiLibrary net
        "/latest".toList).1, Allowed (host asciiLibrary u) := by
  have hsent : Sent asciiLibrary (Client.new "https://api.frankfurter.dev/".toList 3 0 true) "/latest".toList :=
    ⟨by decide, by decide⟩
  have hsight : InSight (authorityOf asciiLibrary "https://api.frankfurter.dev/latest".toList) := ⟨by decide, by decide⟩
  exact ⟨hsight, (calls_stay_iff hsent).1.2 ⟨hsight, .inr rfl⟩⟩

end ExternalCalls

end Dmis
