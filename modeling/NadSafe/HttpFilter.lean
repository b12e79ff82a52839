import Mathlib.Algebra.Ring.Nat
import NadSafe.IpAddresses
import NadSafe.StepRuns

/-!
# The filter for outgoing requests

A request is checked four times: the host of its URL before it is sent, the
host of every redirect before it is followed, a name before it is resolved, and
every address that it is resolved to. The client asks the resolver for names,
and connects to hosts that are addresses by itself.
-/

namespace NadSafe.HttpFilter

open HostText IpAddresses StepRuns

/-- `url::Host`. -/
inductive Host where
  /-- A name. -/
  | domain (d : Text)
  /-- An address of version 4. -/
  | ipv4 (ip : Ipv4Addr)
  /-- An address of version 6. -/
  | ipv6 (ip : Ipv6Addr)
  deriving DecidableEq

/-- What the filter and the client read of a `url::Url`. -/
structure Url where
  /-- The scheme. -/
  scheme : Text
  /-- The host, if there is one. -/
  host : Option Host
  deriving DecidableEq

/-- The configuration. -/
structure Settings where
  /-- `http_request_block_non_global_ips`. -/
  httpRequestBlockNonGlobalIps : Bool
  /-- `http_request_block_regex`. -/
  httpRequestBlockRegex : Option Text

/-- What other crates compute, with their type of compiled expressions. -/
structure Crates (R : Type) where
  /-- `Regex::new`. -/
  newRegex : Text → Option R
  /-- `Regex::is_match`. -/
  isMatch : R → Text → Bool
  /-- `Host::parse`. -/
  parseHost : Text → Option Host
  /-- `Url::parse`. -/
  parseUrl : Text → Option Url
  /-- `Url::join`, with which the client reads a location. -/
  joinUrl : Url → Text → Option Url
  /-- How the client tells an address from a name. -/
  parseIp : Text → Option IpAddr

/-- `CustomHttpClientError`. -/
inductive CustomHttpClientError where
  /-- The expression matched. -/
  | blocked (domain : Text)
  /-- The address is not global. -/
  | nonGlobalIp (domain : Option Text) (ip : IpAddr)
  /-- The host is none. -/
  | invalid (domain : Text)

/-- How a check ends otherwise. -/
inductive Failure where
  /-- It panics. -/
  | panic
  /-- It refuses. -/
  | refused (e : CustomHttpClientError)
  /-- It refuses with a text. -/
  | message (text : String)
  /-- The resolver fails. -/
  | lookup

/-- `COMPILED_REGEX`. -/
structure Cache (R : Type) where
  /-- The last expression, with what it was compiled from. -/
  compiled : Option (Text×R)
  /-- A holder of the lock has panicked. -/
  poisoned : Bool

section Checks

variable {R : Type} (crates : Crates R) (settings : Settings)

/-- `should_block_ip`. -/
def shouldBlockIp (ip : IpAddr) : Bool :=
  if !settings.httpRequestBlockNonGlobalIps then false else !isGlobal ip

/-- The expression is compiled again. -/
def recompile (blockRegex domainOrIp : Text) (cache : Cache R) : Except Failure Bool×Cache R :=
  match crates.newRegex blockRegex with
  | some regex => (.ok (crates.isMatch regex domainOrIp),{cache with compiled := some (blockRegex,regex)})
  | none => (.error .panic,{cache with poisoned := true})

/-- `should_block_address_regex`. -/
def shouldBlockAddressRegex (blockRegex : Option Text) (domainOrIp : Text) (cache : Cache R) :
    Except Failure Bool×Cache R :=
  match blockRegex with
  | none => (.ok false,cache)
  | some blockRegex =>
    if cache.poisoned then (.error .panic,cache)
    else match cache.compiled with
      | some (value,regex) =>
        if value=blockRegex then (.ok (crates.isMatch regex domainOrIp),cache)
        else recompile crates blockRegex domainOrIp cache
      | none => recompile crates blockRegex domainOrIp cache

/-- The address of a host that is one. -/
def Host.ip : Host → Option IpAddr
  | .domain _ => none
  | .ipv4 ip => some (.v4 ip)
  | .ipv6 ip => some (.v6 ip)

/-- The text of a host that the expression is tried on. -/
def Host.text : Host → Text
  | .domain d => d
  | .ipv4 ip => ipText (.v4 ip)
  | .ipv6 ip => ipText (.v6 ip)

/-- `should_block_host`. -/
def shouldBlockHost (host : Host) (cache : Cache R) : Except Failure Unit×Cache R :=
  match host.ip.filter (shouldBlockIp settings) with
  | some ip => (.error (.refused (.nonGlobalIp none ip)),cache)
  | none =>
    match shouldBlockAddressRegex crates settings.httpRequestBlockRegex host.text cache with
    | (.error e,cache) => (.error e,cache)
    | (.ok true,cache) => (.error (.refused (.blocked host.text)),cache)
    | (.ok false,cache) => (.ok (),cache)

/-- A label of a name. -/
def validLabel (label : Text) : Bool :=
  label≠[] && (label.map Char.utf8Size).sum≤63 && label.head?≠some '-' && label.getLast?≠some '-' &&
    label.all fun c => c.isAlphanum || c= '-'

/-- `get_valid_host`. -/
def getValidHost (host : Text) : Except CustomHttpClientError Host :=
  match crates.parseHost host with
  | none => .error (.invalid host)
  | some (.domain domain) =>
    if 253<(domain.map Char.utf8Size).sum then .error (.invalid domain)
    else if !(split '.' domain).all validLabel then .error (.invalid domain)
    else .ok (.domain domain)
  | some other => .ok other

/-- `pre_resolve`. -/
def preResolve (name : Text) (cache : Cache R) : Except Failure Unit×Cache R :=
  match getValidHost crates name with
  | .error _ => (.error (.refused (.invalid name)),cache)
  | .ok host =>
    match shouldBlockHost crates settings host cache with
    | (.error .panic,cache) => (.error .panic,cache)
    | (.error _,cache) => (.error (.refused (.blocked name)),cache)
    | (.ok (),cache) => (.ok (),cache)

/-- `post_resolve`. -/
def postResolve (name : Text) (ip : IpAddr) : Except Failure Unit :=
  if shouldBlockIp settings ip then .error (.refused (.nonGlobalIp (some name) ip)) else .ok ()

/-- `resolve_domain`, with what the resolver answers. -/
def resolveDomain (name : Text) (answer : Option (List IpAddr)) (cache : Cache R) :
    Except Failure (List IpAddr)×Cache R :=
  match preResolve crates settings name cache with
  | (.error e,cache) => (.error e,cache)
  | (.ok (),cache) =>
    match answer with
    | none => (.error .lookup,cache)
    | some results => ((results.forM (postResolve settings name)).map fun _ => results,cache)

/-- `make_http_request`, up to the request that the client is given. -/
def makeHttpRequest (url : Text) (cache : Cache R) : Except Failure Url×Cache R :=
  match crates.parseUrl url with
  | none => (.error (.message "Invalid URL"),cache)
  | some url =>
    match url.host with
    | none => (.error (.message "Invalid host"),cache)
    | some host =>
      match shouldBlockHost crates settings host cache with
      | (.error e,cache) => (.error e,cache)
      | (.ok (),cache) => (.ok url,cache)

/-- The redirect policy, with the number of URLs before. -/
def redirectPolicy (previous : ℕ) (url : Url) (cache : Cache R) : Except Failure Unit×Cache R :=
  if 5≤previous then (.error (.message "Too many redirects"),cache)
  else
    match url.host with
    | none => (.error (.message "Invalid host"),cache)
    | some host => shouldBlockHost crates settings host cache

end Checks

/-- A request on its way. -/
structure Client (R : Type) where
  /-- The compiled expression, which all requests share. -/
  cache : Cache R
  /-- The URL that the client is at, until the request has ended. -/
  current : Option Url
  /-- The number of URLs before. -/
  previous : ℕ
  /-- The hosts of all its URLs. -/
  chain : List Host
  /-- The addresses that it has connected to. -/
  connections : List IpAddr

/-- What happens to a request. -/
inductive Event where
  /-- The client connects, with the answer of the resolver and the addresses
  that it tries. -/
  | connect (answer : Option (List IpAddr)) (tried : IpAddr → Bool)
  /-- It is redirected. -/
  | redirect (location : Text)
  /-- A host is checked for another request. -/
  | elsewhere (blockRegex : Option Text) (domainOrIp : Text)

section Requests

variable {R : Type} (crates : Crates R) (settings : Settings)

/-- The client is given a request, or it never starts. -/
def start (url : Text) (cache : Cache R) : Client R :=
  match makeHttpRequest crates settings url cache with
  | (.ok u,cache) => ⟨cache,some u,0,u.host.toList,[]⟩
  | (.error _,cache) => ⟨cache,none,0,[],[]⟩

/-- The schemes that the client knows. -/
def sends (u : Url) : Bool := u.scheme="http".toList || u.scheme="https".toList

/-- The client connects to the host of its URL. -/
def connect (answer : Option (List IpAddr)) (tried : IpAddr → Bool) (c : Client R) (host : Host) : Client R :=
  match crates.parseIp host.text with
  | some ip => {c with connections := c.connections++[ip]}
  | none =>
    match resolveDomain crates settings host.text answer c.cache with
    | (.ok addrs,cache) => {c with cache := cache,connections := c.connections++addrs.filter tried}
    | (.error _,cache) => {c with cache := cache,current := none}

/-- The client is at the next URL, if the policy lets it follow. -/
def follow (c : Client R) (next : Url) : Client R :=
  match redirectPolicy crates settings (c.previous+1) next c.cache with
  | (.ok (),cache) =>
    {c with cache := cache,current := some next,previous := c.previous+1,chain := c.chain++next.host.toList}
  | (.error _,cache) => {c with cache := cache,current := none}

/-- One event. -/
def step (c : Client R) (e : Event) : Client R :=
  match e,c.current with
  | .connect answer tried,some u =>
    if sends u then
      match u.host with
      | some host => connect crates settings answer tried c host
      | none => {c with current := none}
    else {c with current := none}
  | .redirect location,some u =>
    match crates.joinUrl u location with
    | some next => follow crates settings c next
    | none => c
  | .elsewhere blockRegex domainOrIp,_ =>
    {c with cache := (shouldBlockAddressRegex crates blockRegex domainOrIp c.cache).2}
  | _,none => c

end Requests

/-- The client takes the host of a URL that it sends for an address exactly
if it is one, and for this one. -/
def Plain {R : Type} (crates : Crates R) (u : Url) : Prop :=
  sends u=true → ∀ host,u.host=some host → crates.parseIp host.text=host.ip

/-- What the other crates document: the numeric forms of a host become
addresses when a URL is parsed, and names are left for the resolver. -/
structure Documented {R : Type} (crates : Crates R) : Prop where
  /-- The first URL. -/
  parsed : ∀ t u,crates.parseUrl t=some u → Plain crates u
  /-- That of a location. -/
  joined : ∀ u t v,crates.joinUrl u t=some v → Plain crates v

/-- The compiled expression is that of its text. -/
def Sound {R : Type} (crates : Crates R) (cache : Cache R) : Prop :=
  ∀ value regex,cache.compiled=some (value,regex) → crates.newRegex value=some regex

/-- The expression of the configuration does not match a host. -/
def Cleared {R : Type} (crates : Crates R) (settings : Settings) (host : Host) : Prop :=
  ∀ blockRegex,settings.httpRequestBlockRegex=some blockRegex →
    ∃ regex,crates.newRegex blockRegex=some regex ∧ crates.isMatch regex host.text=false

section Spec

variable {R : Type} {crates : Crates R} {settings : Settings} {cache : Cache R} {host : Host}

/-- Nothing is compiled at first. -/
theorem sound_none : Sound crates ⟨none,false⟩ := by
  intro value regex h
  cases h

theorem recompile_sound (h : Sound crates cache) (block s : Text) : Sound crates (recompile crates block s cache).2 := by
  unfold recompile
  split
  · rename_i regex hregex
    intro value regex' hcompiled
    cases hcompiled
    exact hregex
  · exact h

theorem recompile_ok {block s : Text} {b : Bool} (h : (recompile crates block s cache).1=.ok b) :
    ∃ regex,crates.newRegex block=some regex ∧ crates.isMatch regex s=b := by
  unfold recompile at h
  split at h
  · rename_i regex hregex
    exact ⟨regex,hregex,Except.ok.inj h⟩
  · cases h

/-- A check leaves a sound cache. -/
theorem addressRegex_sound (h : Sound crates cache) (block : Option Text) (s : Text) :
    Sound crates (shouldBlockAddressRegex crates block s cache).2 := by
  unfold shouldBlockAddressRegex
  split
  · exact h
  split
  · exact h
  split
  · split
    · exact h
    · exact recompile_sound h _ s
  · exact recompile_sound h _ s

/-- Its answer is that of the expression as configured. -/
theorem addressRegex_ok (h : Sound crates cache) {block : Option Text} {s : Text} {b : Bool}
    (hok : (shouldBlockAddressRegex crates block s cache).1=.ok b) :
    ∀ text,block=some text → ∃ regex,crates.newRegex text=some regex ∧ crates.isMatch regex s=b := by
  rintro text rfl
  unfold shouldBlockAddressRegex at hok
  dsimp only at hok
  split at hok
  · cases hok
  split at hok
  · rename_i value regex hcompiled
    split at hok
    · rename_i hvalue
      subst hvalue
      exact ⟨regex,h _ _ hcompiled,Except.ok.inj hok⟩
    · exact recompile_ok hok
  · exact recompile_ok hok

theorem blockHost_sound (settings : Settings) (h : Sound crates cache) (host : Host) :
    Sound crates (shouldBlockHost crates settings host cache).2 := by
  have hcheck := addressRegex_sound h settings.httpRequestBlockRegex host.text
  unfold shouldBlockHost
  split
  · exact h
  split <;> rename_i heq <;> rw [heq] at hcheck <;> exact hcheck

/-- A host that is not blocked is cleared, and no address that is blocked. -/
theorem blockHost_ok (settings : Settings) (host : Host) (h : Sound crates cache)
    (hok : (shouldBlockHost crates settings host cache).1=.ok ()) :
    Cleared crates settings host ∧ ∀ ip,host.ip=some ip → shouldBlockIp settings ip=false := by
  unfold shouldBlockHost at hok
  split at hok
  · cases hok
  rename_i hnone
  refine ⟨fun text htext => ?_,fun ip hip => ?_⟩
  · split at hok
    · cases hok
    · cases hok
    · rename_i heq
      exact addressRegex_ok h (congrArg Prod.fst heq) text htext
  · rw [hip] at hnone
    cases hblock : shouldBlockIp settings ip with
    | false => rfl
    | true =>
      rw [Option.filter_some,hblock] at hnone
      cases hnone

theorem preResolve_sound (settings : Settings) (h : Sound crates cache) (name : Text) :
    Sound crates (preResolve crates settings name cache).2 := by
  unfold preResolve
  split
  · exact h
  · rename_i host _
    have hcheck := blockHost_sound settings h host
    split <;> rename_i heq <;> rw [heq] at hcheck <;> exact hcheck

theorem resolveDomain_sound (settings : Settings) (h : Sound crates cache) (name : Text)
    (answer : Option (List IpAddr)) :
    Sound crates (resolveDomain crates settings name answer cache).2 := by
  have hcheck := preResolve_sound settings h name
  unfold resolveDomain
  split
  · rename_i heq
    rw [heq] at hcheck
    exact hcheck
  · rename_i heq
    rw [heq] at hcheck
    split <;> exact hcheck

/-- A loop that checks every element. -/
theorem forM_ok {name : Text} {results : List IpAddr} {u : Unit}
    (h : results.forM (postResolve settings name)=.ok u) : ∀ ip∈results,shouldBlockIp settings ip=false := by
  induction results with
  | nil => exact fun ip hip => absurd hip List.not_mem_nil
  | cons first rest ih =>
    replace h : (postResolve settings name first >>= fun _ => rest.forM (postResolve settings name))=.ok u := h
    cases hblock : shouldBlockIp settings first with
    | true =>
      rw [postResolve,if_pos hblock] at h
      cases h
    | false =>
      have hfirst : postResolve settings name first=.ok () := by
        rw [postResolve,hblock]
        rfl
      rw [hfirst] at h
      exact List.forall_mem_cons.mpr ⟨hblock,ih h⟩

/-- No address that a name is resolved to is blocked. -/
theorem resolveDomain_ok {name : Text} {answer : Option (List IpAddr)} {addrs : List IpAddr}
    (hok : (resolveDomain crates settings name answer cache).1=.ok addrs) :
    ∀ ip∈addrs,shouldBlockIp settings ip=false := by
  unfold resolveDomain at hok
  split at hok
  · cases hok
  split at hok
  · cases hok
  · rename_i results
    cases hloop : results.forM (postResolve settings name) with
    | error e =>
      rw [hloop] at hok
      cases hok
    | ok u =>
      rw [hloop] at hok
      cases hok
      exact forM_ok hloop

end Spec

section Runs

variable {R : Type} {crates : Crates R} {settings : Settings}

/-- A host that passed the check. -/
structure Passed (crates : Crates R) (settings : Settings) (host : Host) : Prop where
  /-- The expression does not match it. -/
  cleared : Cleared crates settings host
  /-- It is no address that is blocked. -/
  ip : ∀ ip,host.ip=some ip → shouldBlockIp settings ip=false

/-- What holds of a request on its way. -/
structure Filtered (crates : Crates R) (settings : Settings) (c : Client R) : Prop where
  /-- The cache is that of all requests. -/
  sound : Sound crates c.cache
  /-- Every host was checked. -/
  chain : ∀ host∈c.chain,Passed crates settings host
  /-- Every address was checked. -/
  connections : ∀ ip∈c.connections,shouldBlockIp settings ip=false
  /-- The host of the current URL is one of them. -/
  current : ∀ u,c.current=some u → ∀ host,u.host=some host → host∈c.chain
  /-- It is no address in disguise. -/
  plain : ∀ u,c.current=some u → Plain crates u
  /-- The redirects were counted. -/
  length : c.chain.length≤c.previous+1 ∧ c.previous<5

variable {c : Client R}

/-- A request that has ended. -/
theorem Filtered.ended (h : Filtered crates settings c) {cache : Cache R} (hcache : Sound crates cache) :
    Filtered crates settings {c with cache := cache,current := none} := by
  refine ⟨hcache,h.chain,h.connections,?_,?_,h.length⟩
  · rintro u he
    cases he
  · rintro u he
    cases he

theorem Filtered.withCache (h : Filtered crates settings c) {cache : Cache R} (hcache : Sound crates cache) :
    Filtered crates settings {c with cache := cache} :=
  ⟨hcache,h.chain,h.connections,h.current,h.plain,h.length⟩

/-- The request that the client is given. -/
theorem start_filtered (hdocumented : Documented crates) {cache : Cache R} (h : Sound crates cache) (url : Text) :
    Filtered crates settings (start crates settings url cache) := by
  have hnothing : ∀ cache',Sound crates cache' → Filtered crates settings ⟨cache',none,0,[],[]⟩ := by
    intro cache' hcache
    refine ⟨hcache,?_,?_,?_,?_,Nat.zero_le 1,Nat.zero_lt_succ 4⟩
    · exact fun host hhost => absurd hhost List.not_mem_nil
    · exact fun ip hip => absurd hip List.not_mem_nil
    · rintro u he
      cases he
    · rintro u he
      cases he
  unfold start makeHttpRequest
  cases hurl : crates.parseUrl url with
  | none => exact hnothing cache h
  | some u =>
    dsimp only
    cases hhost : u.host with
    | none => exact hnothing cache h
    | some host =>
      dsimp only
      have hsound := blockHost_sound settings h host
      have hpassed := blockHost_ok settings host h
      cases hcheck : shouldBlockHost crates settings host cache with
      | mk r cache' =>
        rw [hcheck] at hsound hpassed
        cases r with
        | error e => exact hnothing cache' hsound
        | ok _ =>
          obtain ⟨hcleared,hip⟩ := hpassed rfl
          show Filtered crates settings ⟨cache',some u,0,u.host.toList,[]⟩
          refine ⟨hsound,?_,?_,?_,?_,?_⟩
          · intro other hother
            have hsame : other=host := by
              rw [hhost] at hother
              exact List.mem_singleton.mp hother
            exact hsame ▸ ⟨hcleared,hip⟩
          · exact fun ip hmem => absurd hmem List.not_mem_nil
          · rintro v ⟨⟩ other hother
            exact Option.mem_toList.mpr hother
          · rintro v ⟨⟩
            exact hdocumented.parsed url u hurl
          · rw [hhost]
            exact ⟨le_refl 1,Nat.zero_lt_succ 4⟩

/-- The client connects. -/
theorem connect_filtered (h : Filtered crates settings c) {u : Url} {host : Host}
    (hcurrent : c.current=some u) (hsends : sends u=true) (hhost : u.host=some host)
    (answer : Option (List IpAddr)) (tried : IpAddr → Bool) :
    Filtered crates settings (connect crates settings answer tried c host) := by
  have hmore : ∀ cache ips,Sound crates cache → (∀ ip∈ips,shouldBlockIp settings ip=false) →
      Filtered crates settings {c with cache := cache,connections := c.connections++ips} := by
    intro cache ips hcache hips
    refine ⟨hcache,h.chain,fun ip hip => ?_,h.current,h.plain,h.length⟩
    exact (List.mem_append.mp hip).elim (h.connections ip) (hips ip)
  unfold connect
  cases hparse : crates.parseIp host.text with
  | some ip =>
    refine hmore c.cache [ip] h.sound (List.forall_mem_singleton.mpr ?_)
    have hpassed := h.chain host (h.current u hcurrent host hhost)
    exact hpassed.ip ip ((h.plain u hcurrent hsends host hhost).symm.trans hparse)
  | none =>
    dsimp only
    have hsound := resolveDomain_sound settings h.sound host.text answer
    cases hresolve : resolveDomain crates settings host.text answer c.cache with
    | mk r cache =>
      rw [hresolve] at hsound
      cases r with
      | error e => exact h.ended hsound
      | ok addrs =>
        have haddrs := resolveDomain_ok (congrArg Prod.fst hresolve)
        exact hmore cache (addrs.filter tried) hsound fun ip hip => haddrs ip (List.mem_filter.mp hip).1

/-- The client is redirected. -/
theorem follow_filtered (h : Filtered crates settings c) {next : Url} (hplain : Plain crates next) :
    Filtered crates settings (follow crates settings c next) := by
  unfold follow redirectPolicy
  by_cases hmany : 5≤c.previous+1
  · rw [if_pos hmany]
    exact h.ended h.sound
  rw [if_neg hmany]
  cases hhost : next.host with
  | none => exact h.ended h.sound
  | some host =>
    dsimp only
    have hsound := blockHost_sound settings h.sound host
    have hpassed := blockHost_ok settings host h.sound
    cases hcheck : shouldBlockHost crates settings host c.cache with
    | mk r cache =>
      rw [hcheck] at hsound hpassed
      cases r with
      | error e => exact h.ended hsound
      | ok _ =>
        obtain ⟨hcleared,hip⟩ := hpassed rfl
        refine ⟨hsound,?_,h.connections,?_,?_,?_⟩
        · intro other hother
          rcases List.mem_append.mp hother with hold|hnew
          · exact h.chain other hold
          · have hsame : other=host := List.mem_singleton.mp hnew
            exact hsame ▸ ⟨hcleared,hip⟩
        · rintro v ⟨⟩ other hother
          rw [hhost] at hother
          exact List.mem_append_right _ (Option.mem_toList.mpr hother)
        · rintro v ⟨⟩
          exact hplain
        · have hlength := h.length
          refine ⟨?_,by show c.previous+1<5; omega⟩
          show (c.chain++[host]).length≤c.previous+1+1
          rw [List.length_append,List.length_singleton]
          omega

/-- One event keeps what holds. -/
theorem step_filtered (hdocumented : Documented crates) (h : Filtered crates settings c) (e : Event) :
    Filtered crates settings (step crates settings c e) := by
  cases e with
  | connect answer tried =>
    unfold step
    cases hcurrent : c.current with
    | none => exact h
    | some u =>
      dsimp only
      split
      · rename_i hsends
        cases hhost : u.host with
        | none => exact h.ended h.sound
        | some host => exact connect_filtered h hcurrent hsends hhost answer tried
      · exact h.ended h.sound
  | redirect location =>
    unfold step
    cases hcurrent : c.current with
    | none => exact h
    | some u =>
      dsimp only
      cases hjoin : crates.joinUrl u location with
      | none => exact h
      | some next => exact follow_filtered h (hdocumented.joined u location next hjoin)
  | elsewhere block s => exact h.withCache (addressRegex_sound h.sound block s)

/-- Whatever the resolver answers and wherever the redirects lead, the client
connects to global addresses only, and no host on its way matches the
expression. -/
theorem requests_filtered (hdocumented : Documented crates) (hblock : settings.httpRequestBlockNonGlobalIps=true)
    {cache : Cache R} (hcache : Sound crates cache) (url : Text) (events : List Event) :
    (∀ ip∈(run (step crates settings) (start crates settings url cache) events).connections,isGlobal ip=true) ∧
    (∀ host∈(run (step crates settings) (start crates settings url cache) events).chain,
      Cleared crates settings host) ∧
    (run (step crates settings) (start crates settings url cache) events).chain.length≤5 := by
  have hadmits : Admits (step crates settings) (fun _ _ => True) (start crates settings url cache) events :=
    .of_forall (fun _ _ _ => trivial) _
  have hfiltered : Filtered crates settings (run (step crates settings) (start crates settings url cache) events) :=
    run_invariant (fun c e h _ => step_filtered hdocumented h e) (start_filtered hdocumented hcache url) hadmits
  refine ⟨fun ip hip => ?_,fun host hhost => (hfiltered.chain host hhost).cleared,?_⟩
  · have hpassed := hfiltered.connections ip hip
    rw [shouldBlockIp,hblock] at hpassed
    simpa using hpassed
  · have hlength := hfiltered.length
    omega

/-- Two URLs, a name and an address, with expressions that match one text. -/
def twoUrls : Crates Text where
  newRegex := some
  isMatch := fun regex s => regex=s
  parseHost := fun t => some (.domain t)
  parseUrl := fun t => if t="http://icon.example/".toList then
    some ⟨"http".toList,some (.domain "icon.example".toList)⟩ else none
  joinUrl := fun _ t => if t="http://134744072/".toList then
    some ⟨"http".toList,some (.ipv4 ⟨8,8,8,8⟩)⟩ else none
  parseIp := fun t => if t="8.8.8.8".toList then some (.v4 ⟨8,8,8,8⟩) else none

theorem twoUrls_documented : Documented twoUrls := by
  refine ⟨fun t u h hsends host hhost => ?_,fun u t v h hsends host hhost => ?_⟩
  · unfold twoUrls at h
    dsimp only at h
    split at h
    · cases h
      cases hhost
      rfl
    · cases h
  · unfold twoUrls at h
    dsimp only at h
    split at h
    · cases h
      cases hhost
      rfl
    · cases h

theorem requests_filtered_twoUrls :
    (run (step twoUrls ⟨true,some "localhost".toList⟩)
      (start twoUrls ⟨true,some "localhost".toList⟩ "http://icon.example/".toList ⟨none,false⟩)
      [.connect (some [.v4 ⟨1,1,1,1⟩]) fun _ => true,.redirect "http://134744072/".toList,
        .connect none fun _ => true]).connections=[.v4 ⟨1,1,1,1⟩,.v4 ⟨8,8,8,8⟩] ∧
    ∀ ip∈(run (step twoUrls ⟨true,some "localhost".toList⟩)
      (start twoUrls ⟨true,some "localhost".toList⟩ "http://icon.example/".toList ⟨none,false⟩)
      [.connect (some [.v4 ⟨1,1,1,1⟩]) fun _ => true,.redirect "http://134744072/".toList,
        .connect none fun _ => true]).connections,isGlobal ip=true :=
  ⟨by decide,(requests_filtered twoUrls_documented rfl sound_none _ _).1⟩

end Runs

end NadSafe.HttpFilter
