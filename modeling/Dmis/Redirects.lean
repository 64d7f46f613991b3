import Dmis.Lib.Urls

/-!
# Redirect targets

What `app/security/url_safety.py` accepts as the target of a redirect, and where a browser goes with it.

| here | there |
| --- | --- |
| `isSafeUrl` | `is_safe_url` (`:13-58`) |
| `getSafeRedirectUrl` | `get_safe_redirect_url` (`:61-85`) |
| `validateInternalUrl` | `validate_internal_url` (`:88-112`) |
| `Site.hostUrl` | `request.host_url` |
| `Browser.resolve` | the WHATWG parser with a page of the site as its base, the path and what follows it left out |

A call that raises gives `none`. Main theorem `redirect_stays_iff`: an accepted target stays on the site unless a
browser finds two slashes or backslashes at its beginning, behind the site's own scheme if that is written, and a host
of others behind them. The tests here look for two slashes only, and `urljoin` knows no backslash. A target with
another scheme is never the trouble: only `http` and `https` with the authority of the site pass
(`foreign_scheme_stays`).
-/

namespace Dmis

namespace Redirects

open Urls Python

/-- The address the application answers at. -/
structure Site where
  scheme : Text
  netloc : Text
  scheme_http : scheme = httpScheme ∨ scheme = httpsScheme
  netloc_ne_nil : netloc ≠ []
  netloc_plain : ∀ c ∈ netloc, isPlain c = true

def Site.hostUrl (site : Site) : Text := site.scheme ++ ':' :: '/' :: '/' :: (site.netloc ++ ['/'])

/-- What the code calls: `netlocOk` are the checks of an authority in `urlparse`, `lower` is `str.lower`. -/
structure Library where
  netlocOk : Text → Bool
  lower : Text → Text
  urlFor : Text → Text
  /-- Inside a request `url_for` gives a path. -/
  urlFor_path : ∀ endpoint, (urlFor endpoint).head? = some '/'

/-! ## The checks -/

def markers : List Text := ["javascript:", "data:", "vbscript:"].map String.toList

section
variable (lib : Library) (site : Site)

def isSafeUrl (target : Option Text) : Option Bool :=
  let normalizedTarget := strip (target.getD [])
  if normalizedTarget = [] ∨ ['/', '/'] <+: normalizedTarget then some false
  else if ∃ m ∈ markers, m <+: lib.lower normalizedTarget then some false
  else do
    let refUrl ← urlparse lib.netlocOk site.hostUrl []
    let joined ← urljoin lib.netlocOk site.hostUrl normalizedTarget
    let testUrl ← urlparse lib.netlocOk joined []
    pure (decide ((testUrl.scheme = httpScheme ∨ testUrl.scheme = httpsScheme) ∧ refUrl.netloc = testUrl.netloc))

def getSafeRedirectUrl (target : Option Text) (defaultEndpoint : Text) : Option Text :=
  let t := target.getD []
  if t = [] then some (lib.urlFor defaultEndpoint)
  else do
    let safe ← isSafeUrl lib site target
    pure (if safe then t else lib.urlFor defaultEndpoint)

def validateInternalUrl (url : Option Text) : Option Bool :=
  let u := url.getD []
  if u = [] then some false
  else if ['/'] <+: u ∧ ¬ ['/', '/'] <+: u ∧ ¬ ∃ m ∈ markers, m <:+: lib.lower u then some true
  else isSafeUrl lib site url

/-- The targets the application redirects to. -/
inductive Accepted (t : Text) : Prop where
  | safe (h : isSafeUrl lib site (some t) = some true)
  | redirect (target : Option Text) (endpoint : Text) (h : getSafeRedirectUrl lib site target endpoint = some t)
  | internal (h : validateInternalUrl lib site (some t) = some true)

end

/-! ## The browser -/

/-- A browser's host parser, of which only the site's own host is known. -/
structure Browser (site : Site) (η : Type) where
  /-- The host of an authority without user info; the port may follow it. -/
  hostOf : Text → Option η
  own : η
  hostOf_own : hostOf site.netloc = some own
  hostOf_space : ∀ a, (∃ c ∈ a, isSpace c = true) → hostOf a = none

/-- Where a browser goes; `host` is `none` for a scheme that has none. -/
structure Target (η : Type) where
  scheme : Text
  host : Option η
  deriving DecidableEq

/-- Two slashes or backslashes. -/
def twoSlashes : Text → Bool
  | a :: b :: _ => isSlash a && isSlash b
  | _ => false

section
variable {site : Site} {η : Type}

/-- The host behind the slashes. -/
def Browser.hostBehind (b : Browser site η) (rest : Text) : Option η := b.hostOf (hostText (authority rest))

/-- The states without a scheme of its own: the relative states and those behind two slashes. -/
def Browser.relative (b : Browser site η) (rest : Text) : Option (Target η) :=
  if twoSlashes rest then (b.hostBehind rest).map fun h => ⟨site.scheme, some h⟩
  else some ⟨site.scheme, some b.own⟩

def Browser.resolve (b : Browser site η) (t : Text) : Option (Target η) :=
  match schemeStart (browserClean t) with
  | some (s, rest) =>
    if s = site.scheme then b.relative rest
    else if special.contains s then (b.hostBehind rest).map fun h => ⟨s, some h⟩
    else some ⟨s, none⟩
  | none => b.relative (browserClean t)

/-- A target that is no URL leads nowhere. -/
def Browser.Stays (b : Browser site η) (t : Text) : Prop :=
  ∀ r ∈ b.resolve t, (r.scheme = httpScheme ∨ r.scheme = httpsScheme) ∧ r.host = some b.own

/-- A text behind the site's own scheme. -/
def Site.behindScheme (site : Site) (c : Text) : Text :=
  match schemeStart c with
  | some (s, rest) => if s = site.scheme then rest else c
  | none => c

/-- Two slashes at the beginning have no foreign host behind them. -/
def Browser.NoForeignHost (b : Browser site η) (t : Text) : Prop :=
  twoSlashes (site.behindScheme (browserClean t)) = true →
    ∀ h ∈ b.hostBehind (site.behindScheme (browserClean t)), h = b.own

theorem relative_stays_iff (b : Browser site η) (rest : Text) :
    (∀ r ∈ b.relative rest, (r.scheme = httpScheme ∨ r.scheme = httpsScheme) ∧ r.host = some b.own) ↔
      (twoSlashes rest = true → ∀ h ∈ b.hostBehind rest, h = b.own) := by
  unfold Browser.relative
  by_cases htwo : twoSlashes rest = true
  · rw [if_pos htwo]
    constructor
    · intro h _ host hhost
      have := h ⟨site.scheme, some host⟩ (Option.mem_map_of_mem _ hhost)
      exact Option.some.inj this.2
    · intro h r hr
      obtain ⟨host, hhost, rfl⟩ := Option.mem_map.1 hr
      exact ⟨site.scheme_http, by rw [h htwo host hhost]⟩
  · rw [if_neg htwo]
    constructor
    · intro _ h
      exact absurd h htwo
    · intro _ r hr
      cases hr
      exact ⟨site.scheme_http, rfl⟩

/-! ## Targets with a scheme of their own -/

theorem isPlain_not_slash {c : Char} (h : isPlain c = true) : isSlash c = false := by
  simp only [isPlain, isDelimiter, Bool.and_eq_true, Bool.not_eq_true', Bool.or_eq_false_iff, decide_eq_true_eq,
    decide_eq_false_iff_not] at h
  simp [isSlash, h.1.1.1.2.1.1, h.1.1.2]

theorem isPlain_not_c0 {c : Char} (h : isPlain c = true) : isC0Space c = false := by
  simp only [isPlain, Bool.and_eq_true, decide_eq_true_eq] at h
  simp only [isC0Space, decide_eq_false_iff_not]
  omega

theorem isPlain_not_end {c : Char} (h : isPlain c = true) : (!(isDelimiter c || c = '\\')) = true := by
  simp only [isPlain, Bool.and_eq_true] at h
  simpa using ⟨by simpa using h.1.1.1.2, by simpa using h.1.1.2⟩

theorem isPlain_not_at {c : Char} (h : isPlain c = true) : c ≠ '@' := by
  rintro rfl
  exact absurd h (by decide)

theorem netloc_dropWhile (site : Site) (tl : Text) :
    ('/' :: '/' :: (site.netloc ++ tl)).dropWhile isSlash = site.netloc ++ tl := by
  obtain ⟨a, n, hn⟩ := List.exists_cons_of_ne_nil site.netloc_ne_nil
  have ha := isPlain_not_slash (site.netloc_plain a (by simp [hn]))
  have hslash : isSlash '/' = true := rfl
  rw [hn, List.dropWhile_cons, if_pos hslash, List.dropWhile_cons, if_pos hslash, List.cons_append,
    List.dropWhile_cons, if_neg (by simp [ha])]

/-- The authority of the site, and behind it a delimiter or nothing but white space. -/
theorem hostBehind_own (b : Browser site η) (tl : Text)
    (htl : (∀ c ∈ tl.head?, isDelimiter c = true) ∨ ∀ c ∈ tl, isSpace c = true) :
    ∀ h ∈ b.hostBehind ('/' :: '/' :: (site.netloc ++ tl)), h = b.own := by
  intro h hh
  have hnetloc := fun c hc => isPlain_not_end (site.netloc_plain c hc)
  unfold Browser.hostBehind authority at hh
  rw [netloc_dropWhile, List.takeWhile_append_of_pos hnetloc] at hh
  have hrest : ∀ c ∈ tl.takeWhile (fun c => !(isDelimiter c || c = '\\')), isSpace c = true := by
    rcases htl with hdelim | hspace
    · cases tl with
      | nil => simp
      | cons c tl =>
        rw [List.takeWhile_cons, if_neg (by simp [hdelim c rfl])]
        simp
    · exact fun c hc => hspace c ((List.takeWhile_prefix _).subset hc)
  generalize tl.takeWhile (fun c => !(isDelimiter c || c = '\\')) = k at hh hrest
  rw [hostText_of_notMem] at hh
  · cases k with
    | nil =>
      rw [List.append_nil, b.hostOf_own] at hh
      exact (Option.some.inj hh).symm
    | cons c k =>
      rw [b.hostOf_space _ ⟨c, by simp, hrest c (by simp)⟩] at hh
      cases hh
  · intro hat
    rcases List.mem_append.1 hat with hat | hat
    · exact isPlain_not_at (site.netloc_plain _ hat) rfl
    · exact absurd (hrest _ hat) (by decide)

theorem pythonClean_eq_self {s : Text} (h : ∀ c ∈ s, isC0Space c = false) : pythonClean s = s := by
  have hdrop : s.dropWhile isC0Space = s := by
    cases s with
    | nil => rfl
    | cons c s => rw [List.dropWhile_cons, if_neg (by simp [h c])]
  rw [pythonClean, hdrop]
  exact List.filter_eq_self.2 fun c hc => by simp [isBreak_of_not_c0 (h c hc)]

theorem schemeStart_site (site : Site) (rest : Text) :
    schemeStart (site.scheme ++ ':' :: rest) = some (site.scheme, rest) := by
  rcases site.scheme_http with h | h <;> rw [h] <;> rfl

theorem urlparse_hostUrl {netlocOk : Text → Bool} {u : SplitUrl} (h : urlparse netlocOk site.hostUrl [] = some u) :
    u.scheme = site.scheme ∧ u.netloc = site.netloc := by
  have hclean : pythonClean site.hostUrl = site.hostUrl := by
    refine pythonClean_eq_self fun c hc => ?_
    simp only [Site.hostUrl, List.mem_append, List.mem_cons, List.not_mem_nil, or_false] at hc
    rcases hc with hc | rfl | rfl | rfl | hc | rfl
    · rcases site.scheme_http with hs | hs
      · exact Relational.forall_of_all (p := fun c => isC0Space c = false) (by decide) c (hs ▸ hc)
      · exact Relational.forall_of_all (p := fun c => isC0Space c = false) (by decide) c (hs ▸ hc)
    · decide
    · decide
    · decide
    · exact isPlain_not_c0 (site.netloc_plain c hc)
    · decide
  obtain ⟨hscheme, hnetloc⟩ := urlparse_eq h
  rw [hclean, Site.hostUrl, splitScheme_eq_schemeStart, schemeStart_site] at hscheme hnetloc
  refine ⟨hscheme, hnetloc.trans ?_⟩
  refine Relational.takeWhile_append_head (fun c hc => ?_) (by simp [isDelimiter])
  have := site.netloc_plain c hc
  simp only [isPlain, Bool.and_eq_true] at this
  exact this.1.1.1.2

/-- What the call of `urljoin` and the comparison found. -/
theorem isSafeUrl_ok {lib : Library} {t : Text} (h : isSafeUrl lib site (some t) = some true) :
    strip t ≠ [] ∧ ¬ ['/', '/'] <+: strip t ∧
      ∃ joined u, urljoin lib.netlocOk site.hostUrl (strip t) = some joined ∧
        urlparse lib.netlocOk joined [] = some u ∧ (u.scheme = httpScheme ∨ u.scheme = httpsScheme) ∧
        u.netloc = site.netloc := by
  unfold isSafeUrl at h
  simp only [Option.getD_some] at h
  split at h
  · cases h
  · rename_i hne
    rw [not_or] at hne
    split at h
    · cases h
    · obtain ⟨ref, href, h⟩ := Option.bind_eq_some_iff.1 h
      obtain ⟨joined, hjoined, h⟩ := Option.bind_eq_some_iff.1 h
      obtain ⟨u, hu, h⟩ := Option.bind_eq_some_iff.1 h
      obtain ⟨hscheme, hnetloc⟩ := of_decide_eq_true (Option.some.inj h)
      exact ⟨hne.1, hne.2, joined, u, hjoined, hu, hscheme, hnetloc.symm.trans (urlparse_hostUrl href).2⟩

/-- `urljoin` does not touch a URL with another scheme. -/
theorem urljoin_foreign {netlocOk : Text → Bool} {url joined s r : Text} (hne : url ≠ [])
    (hs : splitScheme (pythonClean url) = some (s, r)) (hother : s ≠ site.scheme)
    (h : urljoin netlocOk site.hostUrl url = some joined) : joined = url := by
  unfold urljoin at h
  rw [if_neg (by simp [Site.hostUrl]), if_neg hne] at h
  obtain ⟨b, hb, h⟩ := Option.bind_eq_some_iff.1 h
  obtain ⟨u, hu, h⟩ := Option.bind_eq_some_iff.1 h
  have hscheme : u.scheme = s := by
    rw [(urlparse_eq hu).1, hs]
    rfl
  rw [if_pos (.inl (by rw [hscheme, (urlparse_hostUrl hb).1]; exact hother))] at h
  exact (Option.some.inj h).symm

/-- Python read the authority of the site; what the browser reads differs by blanks at the end. -/
theorem hostBehind_of_ends (b : Browser site η) {rest tl : Text} (hdelim : ∀ c ∈ tl.head?, isDelimiter c = true)
    (hends : (∃ j, '/' :: '/' :: (site.netloc ++ tl) = rest ++ j ∧ ∀ c ∈ j, isC0Space c = true) ∨
      ∃ j, rest = '/' :: '/' :: (site.netloc ++ tl) ++ j ∧ ∀ c ∈ j, isSpace c = true) :
    ∀ host ∈ b.hostBehind rest, host = b.own := by
  rcases hends with ⟨j, hj, hjs⟩ | ⟨j, rfl, hjs⟩
  · have hsplit : '/' :: '/' :: site.netloc ++ tl = rest ++ j := hj
    rcases List.append_eq_append_iff.1 hsplit with ⟨k, rfl, htl⟩ | ⟨k, hown, hk⟩
    · refine hostBehind_own b _ (.inl fun c hc => hdelim c ?_)
      rw [htl, List.head?_append, hc]
      rfl
    · -- the authority has no blank to lose
      have hnil : k = [] := by
        refine List.eq_nil_iff_forall_not_mem.2 fun c hc => ?_
        have hblank := hjs c (hk ▸ List.mem_append_left tl hc)
        have hmem : c ∈ '/' :: '/' :: site.netloc := hown ▸ List.mem_append_right rest hc
        simp only [List.mem_cons] at hmem
        rcases hmem with rfl | rfl | hmem
        · exact absurd hblank (by decide)
        · exact absurd hblank (by decide)
        · rw [isPlain_not_c0 (site.netloc_plain c hmem)] at hblank
          cases hblank
      subst hnil
      rw [List.append_nil] at hown
      have hbehind := hostBehind_own b [] (.inr (by simp))
      rwa [List.append_nil, hown] at hbehind
  · cases tl with
    | nil => simpa using hostBehind_own b j (.inr hjs)
    | cons c tl =>
      have hbehind := hostBehind_own b (c :: tl ++ j) (.inl fun d hd => hdelim d hd)
      simpa using hbehind

/-- **Another scheme**: the checks let it pass only as `http` or `https` with the authority of the site. -/
theorem foreign_scheme_stays {lib : Library} (b : Browser site η) {t s rest : Text}
    (h : isSafeUrl lib site (some t) = some true) (hs : schemeStart (browserClean t) = some (s, rest))
    (hother : s ≠ site.scheme) :
    (s = httpScheme ∨ s = httpsScheme) ∧ ∀ host ∈ b.hostBehind rest, host = b.own := by
  obtain ⟨hne, -, joined, u, hjoined, hu, hscheme, hnetloc⟩ := isSafeUrl_ok h
  obtain ⟨r', hp, hends⟩ := scheme_comparable hs
  rw [urljoin_foreign hne hp hother hjoined] at hu
  obtain ⟨hus, hun⟩ := urlparse_eq hu
  rw [hp] at hus hun
  simp only [Option.getD_some] at hus hun
  refine ⟨hus ▸ hscheme, ?_⟩
  rw [hnetloc] at hun
  obtain ⟨hr', hdelim⟩ := splitNetloc_eq r' (by rw [← hun]; exact site.netloc_ne_nil)
  rw [← hun] at hr'
  rw [hr'] at hends
  exact hostBehind_of_ends b hdelim hends

/-! ## Accepted targets -/

theorem schemeStart_of_path {t : Text} (h : t.head? = some '/') : schemeStart (browserClean t) = none := by
  obtain ⟨tl, rfl⟩ := List.head?_eq_some_iff.1 h
  have hclean := (clean_eq [] tl (a := '/') (by simp) (by decide)).1
  rw [List.nil_append] at hclean
  rw [hclean]
  rfl

/-- Whichever check let a target pass, it is a path or `is_safe_url` has seen it. -/
theorem Accepted.safe_or_path {lib : Library} {t : Text} (h : Accepted lib site t) :
    isSafeUrl lib site (some t) = some true ∨ t.head? = some '/' := by
  cases h with
  | safe h => exact .inl h
  | redirect target endpoint h =>
    unfold getSafeRedirectUrl at h
    dsimp only at h
    split at h
    · cases h
      exact .inr (lib.urlFor_path endpoint)
    · rename_i hne
      obtain ⟨safe, hsafe, h⟩ := Option.bind_eq_some_iff.1 h
      cases safe with
      | false =>
        cases h
        exact .inr (lib.urlFor_path endpoint)
      | true =>
        cases h
        cases target with
        | none => exact absurd rfl hne
        | some t => exact .inl hsafe
  | internal h =>
    unfold validateInternalUrl at h
    simp only [Option.getD_some] at h
    split at h
    · cases h
    · split at h
      · rename_i hpath
        obtain ⟨tl, rfl⟩ := hpath.1
        exact .inr rfl
      · exact .inl h

theorem stays_iff_of_eq_none (b : Browser site η) {t : Text} (h : schemeStart (browserClean t) = none) :
    b.Stays t ↔ b.NoForeignHost t := by
  unfold Browser.Stays Browser.NoForeignHost Browser.resolve Site.behindScheme
  rw [h]
  exact relative_stays_iff b (browserClean t)

theorem behindScheme_other {c s rest : Text} (hs : schemeStart c = some (s, rest)) (hother : s ≠ site.scheme) :
    site.behindScheme c = c := by
  unfold Site.behindScheme
  rw [hs]
  exact if_neg hother

/-- A text with a scheme does not begin with a slash. -/
theorem twoSlashes_of_scheme {c s rest : Text} (hs : schemeStart c = some (s, rest)) : twoSlashes c = false := by
  obtain ⟨a, tl, rfl, ha⟩ := schemeStart_head hs
  cases tl with
  | nil => rfl
  | cons d tl =>
    by_contra htwo
    simp only [twoSlashes, isSlash, Bool.not_eq_false, Bool.and_eq_true, Bool.or_eq_true, decide_eq_true_eq] at htwo
    rcases htwo.1 with rfl | rfl
    · exact absurd ha (by decide)
    · exact absurd ha (by decide)

/-- **Where accepted targets lead**: they stay on the site exactly when no foreign host stands behind two slashes or
backslashes at their beginning. -/
theorem redirect_stays_iff (lib : Library) (b : Browser site η) {t : Text} (h : Accepted lib site t) :
    b.Stays t ↔ b.NoForeignHost t := by
  rcases h.safe_or_path with hsafe | hpath
  · cases hs : schemeStart (browserClean t) with
    | none => exact stays_iff_of_eq_none b hs
    | some r =>
      obtain ⟨s, rest⟩ := r
      by_cases hown : s = site.scheme
      · unfold Browser.Stays Browser.NoForeignHost Browser.resolve Site.behindScheme
        simp only [hs, hown, if_true]
        exact relative_stays_iff b rest
      · obtain ⟨hscheme, hhost⟩ := foreign_scheme_stays b hsafe hs hown
        have hspecial : special.contains s = true := by
          rcases hscheme with rfl | rfl <;> decide
        constructor
        · intro _ htwo
          rw [behindScheme_other hs hown, twoSlashes_of_scheme hs] at htwo
          cases htwo
        · intro _ r hr
          unfold Browser.resolve at hr
          simp only [hs, hown, hspecial, if_false, if_true] at hr
          obtain ⟨host, hh, rfl⟩ := Option.mem_map.1 hr
          exact ⟨hscheme, by rw [hhost host hh]⟩
  · exact stays_iff_of_eq_none b (schemeStart_of_path hpath)

end

/-! ## A backslash -/

def officeSite : Site where
  scheme := httpScheme
  netloc := "dmis.gov.jm".toList
  scheme_http := .inl rfl
  netloc_ne_nil := by decide
  netloc_plain := Relational.forall_of_all (by decide)

def asciiLibrary : Library where
  netlocOk _ := true
  lower s := s.map Char.toLower
  urlFor endpoint := '/' :: endpoint
  urlFor_path _ := rfl

/-- A browser that knows hosts of letters, digits, points and hyphens. -/
def asciiBrowser : Browser officeSite Text where
  hostOf a := if a ≠ [] ∧ a.all (fun c => c.isAlphanum || c = '.' || c = '-') then some (a.map Char.toLower) else none
  own := "dmis.gov.jm".toList
  hostOf_own := by decide
  hostOf_space := by
    rintro a ⟨c, hc, hs⟩
    refine if_neg fun h => ?_
    have hall := List.all_eq_true.1 h.2 c hc
    simp only [Bool.or_eq_true, decide_eq_true_eq] at hall
    rcases hall with (halnum | rfl) | rfl
    · rw [isSpace_of_isAlphanum halnum] at hs
      cases hs
    · exact absurd hs (by decide)
    · exact absurd hs (by decide)

theorem backslash_leaves :
    isSafeUrl asciiLibrary officeSite (some "/\\evil.com".toList) = some true ∧
      getSafeRedirectUrl asciiLibrary officeSite (some "/\\evil.com".toList) "dashboard".toList =
        some "/\\evil.com".toList ∧
      validateInternalUrl asciiLibrary officeSite (some "/\\evil.com".toList) = some true ∧
      ¬ asciiBrowser.Stays "/\\evil.com".toList := by
  refine ⟨by decide, by decide, by decide, ?_⟩
  intro h
  have hgoes : asciiBrowser.resolve "/\\evil.com".toList = some ⟨httpScheme, some "evil.com".toList⟩ := by decide
  exact absurd (h _ hgoes).2 (by decide)

theorem redirect_stays_iff_dashboard :
    asciiBrowser.Stays "/dashboard".toList ↔ asciiBrowser.NoForeignHost "/dashboard".toList :=
  redirect_stays_iff asciiLibrary asciiBrowser (.safe (by decide))

end Redirects

end Dmis
