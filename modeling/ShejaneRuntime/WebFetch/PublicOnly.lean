import ShejaneRuntime.WebFetch.Fetch

/-!
# What a fetch connects to

Every connection of a fetch goes to the first address of the one lookup of its
hop, after all addresses of the lookup were let through. What is let through
besides the globally routable addresses are the shared ones and those of a site.
-/

namespace ShejaneRuntime.WebFetch

/-- The scheme by which a hop is judged. -/
def Hop.https (texts : Texts) (h : Hop) : Prop :=
  ∃ parts, texts.urlsplit h.url = .ok parts ∧ parts.scheme = "https"

/-- The fetch reaches public addresses alone. -/
structure PublicOnly (texts : Texts) (hops : List Hop) : Prop where
  looked_up : ∀ h ∈ hops, ∀ address ∈ h.connections, ∃ addresses,
    h.lookups = [.ok addresses] ∧ address ∈ addresses ∧
      ∀ ip ∈ addresses, isPrivateIp texts.ipAddress ip = false ∨
        isFakeIpProxyAddress texts.ipAddress ip = true ∧ h.https texts
  routable : ∀ h ∈ hops, ∀ address ∈ h.connections, ∃ a, texts.ipAddress address = some a ∧
    (a.Routable ∨ a.inFakeIpProxyNetwork = true ∧ h.https texts)
  few : (hops.flatMap Hop.connections).length ≤ MAX_REDIRECTS + 1
  bodies : ∀ front h back, hops = front ++ h :: back → front ≠ [] →
    (∃ request ∈ h.requests, request.content.isSome) →
      ∀ g ∈ front, g.redirect = some 307 ∨ g.redirect = some 308

section

variable (texts : Texts) (network : Network)

/-- The client connects for a URL, and to this address: the lookup begins with it and all its
addresses are let through, and the client asks for the host that was looked up. -/
def Opens (hop : ℕ) (url first : String) : Prop :=
  ∃ parts hostname rest, texts.urlsplit url = .ok parts ∧ checkUrl texts parts = .ok hostname ∧
    network.getaddrinfo hop hostname = .ok (first :: rest) ∧
    (∀ ip ∈ first :: rest, accepted texts (parts.scheme == "https") ip = true) ∧
    ∃ host, network.dial hop url = .ok host ∧ texts.lower host = texts.lower hostname

/-- A hop and its URL that redirects lead to. -/
inductive Reaches (start : String) : ℕ → String → Prop
  | start : Reaches start 0 start
  | next {hop : ℕ} {url first location next : String} {response : Response} :
      Reaches start hop url → Opens texts network hop url first →
      network.connect hop first = .ok () → network.respond hop = .ok response →
      response.redirect = some location → hop < MAX_REDIRECTS →
      texts.urljoin url location = .ok next → Reaches start (hop + 1) next

end

variable {texts : Texts} {network : Network} {contentType url first method body start : String}
  {hop remaining : ℕ}

/-! ## One hop -/

theorem pinFirst_eq_ok {hostname : String} {allow : Bool} {pinned p : Option String}
    {addresses : List String} : pinFirst texts hostname allow pinned addresses = .ok p ↔
      (∀ ip ∈ addresses, accepted texts allow ip = true) ∧ p = pinned.or addresses.head? := by
  induction addresses generalizing pinned with
  | nil =>
      unfold pinFirst
      rw [Except.ok.injEq, List.head?_nil, Option.or_none]
      constructor
      · rintro rfl
        exact ⟨fun ip hip ↦ absurd hip List.not_mem_nil, rfl⟩
      · rintro ⟨_, rfl⟩
        rfl
  | cons ip addresses ih =>
      unfold pinFirst
      by_cases hip : accepted texts allow ip = true
      · rw [if_pos hip, ih, List.forall_mem_cons, List.head?_cons]
        cases pinned <;> simp [hip]
      · rw [if_neg hip]
        simp [hip]

theorem resolvePinned_eq_ok {lookup : Except LookupFailure (List String)}
    {hostname address : String}
    {allow : Bool} : resolvePinned texts lookup hostname allow = .ok address ↔
      ∃ rest, lookup = .ok (address :: rest) ∧
        ∀ ip ∈ address :: rest, accepted texts allow ip = true := by
  unfold resolvePinned
  cases lookup with
  | error failure => cases failure <;> simp
  | ok addresses =>
      dsimp only
      cases hpin : pinFirst texts hostname allow none addresses with
      | error reason =>
          simp only [reduceCtorEq, false_iff]
          rintro ⟨rest, haddresses, hall⟩
          obtain rfl := Except.ok.inj haddresses
          rw [pinFirst_eq_ok.mpr ⟨hall, rfl⟩] at hpin
          cases hpin
      | ok p =>
          obtain ⟨hall, rfl⟩ := pinFirst_eq_ok.mp hpin
          cases addresses with
          | nil => simp
          | cons ip rest =>
              simp only [List.head?_cons, Option.or_some, Option.getD_none, Except.ok.injEq,
                List.cons.injEq]
              constructor
              · rintro rfl
                exact ⟨rest, ⟨rfl, rfl⟩, hall⟩
              · rintro ⟨_, ⟨rfl, _⟩, _⟩
                rfl

/-- The request of a hop. -/
def requestOf (contentType method body : String) : Request :=
  if method = "POST" then { method, contentType := some contentType, content := some body }
  else { method, contentType := none, content := none }

variable (contentType method body) in
theorem fetchHop_of_opens (h : Opens texts network hop url first) :
    ∃ rest requests, (fetchHop texts network contentType hop url method body).1 =
        { url, lookups := [.ok (first :: rest)], connections := [first], requests,
          redirect := none } ∧
      (∃ parts, texts.urlsplit url = .ok parts ∧
        ∀ ip ∈ first :: rest, accepted texts (parts.scheme == "https") ip = true) ∧
      (∀ request ∈ requests, request = requestOf contentType method body) ∧
      ∀ response, (fetchHop texts network contentType hop url method body).2 = .ok response ↔
        network.connect hop first = .ok () ∧ network.respond hop = .ok response := by
  obtain ⟨parts, hostname, rest, hsplit, hcheck, hlookup, hall, host, hdial, hlower⟩ := h
  have hpinned : pinnedTransport texts (network.getaddrinfo hop) url =
      ([.ok (first :: rest)], .ok { hostname := texts.lower hostname, address := first }) := by
    unfold pinnedTransport
    rw [hsplit]
    dsimp only
    rw [hcheck]
    dsimp only
    rw [hlookup, resolvePinned_eq_ok.mpr ⟨rest, rfl, hall⟩]
  unfold fetchHop PinnedNetworkBackend.connectTcp
  simp only [hpinned, hdial, hlower, ne_eq, not_true_eq_false, if_false]
  cases hconnect : network.connect hop first with
  | error failure =>
      refine ⟨rest, [], rfl, ⟨parts, hsplit, hall⟩, fun r hr ↦ absurd hr List.not_mem_nil, ?_⟩
      simp
  | ok done =>
      cases hrespond : network.respond hop with
      | error failure =>
          refine ⟨rest, _, rfl, ⟨parts, hsplit, hall⟩,
            fun r hr ↦ List.mem_singleton.mp hr, ?_⟩
          simp
      | ok response =>
          refine ⟨rest, _, rfl, ⟨parts, hsplit, hall⟩,
            fun r hr ↦ List.mem_singleton.mp hr, ?_⟩
          simp

variable (contentType method body) in
theorem fetchHop_of_not_opens (h : ∀ first, ¬Opens texts network hop url first) :
    ∃ lookups result, fetchHop texts network contentType hop url method body =
      ({ url, lookups, connections := [], requests := [], redirect := none }, .error result) := by
  unfold fetchHop
  dsimp only
  cases hpinned : (pinnedTransport texts (network.getaddrinfo hop) url).2 with
  | error result => exact ⟨_, _, rfl⟩
  | ok backend =>
      dsimp only
      cases hdial : network.dial hop url with
      | error failure => exact ⟨_, _, rfl⟩
      | ok host =>
          dsimp only
          unfold PinnedNetworkBackend.connectTcp
          by_cases hlower : texts.lower host = backend.hostname
          · exfalso
            unfold pinnedTransport at hpinned
            cases hsplit : texts.urlsplit url with
            | error error =>
                rw [hsplit] at hpinned
                cases hpinned
            | ok parts =>
                rw [hsplit] at hpinned
                dsimp only at hpinned
                cases hcheck : checkUrl texts parts with
                | error reason =>
                    rw [hcheck] at hpinned
                    cases hpinned
                | ok hostname =>
                    rw [hcheck] at hpinned
                    dsimp only at hpinned
                    cases hresolve : resolvePinned texts (network.getaddrinfo hop hostname)
                        hostname (parts.scheme == "https") with
                    | error result =>
                        rw [hresolve] at hpinned
                        cases hpinned
                    | ok address =>
                        rw [hresolve] at hpinned
                        obtain rfl := Except.ok.inj hpinned
                        obtain ⟨rest, hlookup, hall⟩ := resolvePinned_eq_ok.mp hresolve
                        exact h address ⟨parts, hostname, rest, hsplit, hcheck, hlookup, hall,
                          host, hdial, hlower⟩
          · rw [if_pos hlower]
            exact ⟨_, _, rfl⟩

theorem opens_of_mem {address : String}
    (h : address ∈ (fetchHop texts network contentType hop url method body).1.connections) :
    Opens texts network hop url address := by
  by_cases hopens : ∃ first, Opens texts network hop url first
  · obtain ⟨first, hfirst⟩ := hopens
    obtain ⟨rest, requests, heq, _⟩ := fetchHop_of_opens contentType method body hfirst
    rw [heq] at h
    obtain rfl := List.mem_singleton.mp h
    exact hfirst
  · rw [not_exists] at hopens
    obtain ⟨lookups, result, heq⟩ := fetchHop_of_not_opens contentType method body hopens
    rw [heq] at h
    cases h

theorem length_connections_le (texts : Texts) (network : Network) (contentType : String)
    (hop : ℕ) (url method body : String) :
    (fetchHop texts network contentType hop url method body).1.connections.length ≤ 1 := by
  by_cases hopens : ∃ first, Opens texts network hop url first
  · obtain ⟨first, hfirst⟩ := hopens
    obtain ⟨rest, requests, heq, _⟩ := fetchHop_of_opens contentType method body hfirst
    rw [heq]
    exact Nat.le_refl 1
  · rw [not_exists] at hopens
    obtain ⟨lookups, result, heq⟩ := fetchHop_of_not_opens contentType method body hopens
    rw [heq]
    exact Nat.zero_le 1

theorem request_of_mem {request : Request}
    (h : request ∈ (fetchHop texts network contentType hop url method body).1.requests) :
    request = requestOf contentType method body := by
  by_cases hopens : ∃ first, Opens texts network hop url first
  · obtain ⟨first, hfirst⟩ := hopens
    obtain ⟨rest, requests, heq, _, hall, _⟩ := fetchHop_of_opens contentType method body hfirst
    rw [heq] at h
    exact hall request h
  · rw [not_exists] at hopens
    obtain ⟨lookups, result, heq⟩ := fetchHop_of_not_opens contentType method body hopens
    rw [heq] at h
    cases h

/-- A response comes over a connection. -/
theorem opens_of_response {response : Response}
    (h : (fetchHop texts network contentType hop url method body).2 = .ok response) :
    ∃ first, Opens texts network hop url first ∧ network.connect hop first = .ok () ∧
      network.respond hop = .ok response := by
  by_cases hopens : ∃ first, Opens texts network hop url first
  · obtain ⟨first, hfirst⟩ := hopens
    obtain ⟨rest, requests, _, _, _, hanswer⟩ := fetchHop_of_opens contentType method body hfirst
    exact ⟨first, hfirst, (hanswer response).mp h⟩
  · rw [not_exists] at hopens
    obtain ⟨lookups, result, heq⟩ := fetchHop_of_not_opens contentType method body hopens
    rw [heq] at h
    cases h

/-! ## The hops of a fetch -/

variable (contentType method body remaining) in
theorem fetchFrom_of_redirect {location next : String} {response : Response}
    (hopens : Opens texts network hop url first) (hconnect : network.connect hop first = .ok ())
    (hrespond : network.respond hop = .ok response) (hredirect : response.redirect = some location)
    (hlt : hop < MAX_REDIRECTS) (hjoin : texts.urljoin url location = .ok next) :
    (fetchFrom texts network contentType (remaining + 1) hop url method body).1 =
      { (fetchHop texts network contentType hop url method body).1 with
        redirect := some response.status } ::
      (fetchFrom texts network contentType remaining (hop + 1) next
        (if response.status ∈ [301, 302, 303] then "GET" else method)
        (if response.status ∈ [301, 302, 303] then "" else body)).1 := by
  obtain ⟨_, _, _, _, _, hanswer⟩ := fetchHop_of_opens contentType method body hopens
  have hresponse := (hanswer response).mpr ⟨hconnect, hrespond⟩
  conv_lhs => unfold fetchFrom
  simp only [hresponse, hredirect, hjoin]
  rw [if_neg (Nat.not_le_of_lt hlt)]

/-- The next hop of a fetch, if its response leads on. -/
theorem fetchFrom_succ (texts : Texts) (network : Network)
    (contentType : String) (remaining hop : ℕ) (url method body : String) :
    (∃ result, fetchFrom texts network contentType (remaining + 1) hop url method body =
      ([(fetchHop texts network contentType hop url method body).1], result)) ∨
    ∃ first location next response, Opens texts network hop url first ∧
      network.connect hop first = .ok () ∧ network.respond hop = .ok response ∧
      response.redirect = some location ∧ hop < MAX_REDIRECTS ∧
      texts.urljoin url location = .ok next ∧
      (fetchFrom texts network contentType (remaining + 1) hop url method body).1 =
        { (fetchHop texts network contentType hop url method body).1 with
          redirect := some response.status } ::
        (fetchFrom texts network contentType remaining (hop + 1) next
          (if response.status ∈ [301, 302, 303] then "GET" else method)
          (if response.status ∈ [301, 302, 303] then "" else body)).1 := by
  cases hanswer : (fetchHop texts network contentType hop url method body).2 with
  | error result =>
      left
      unfold fetchFrom
      dsimp only
      rw [hanswer]
      exact ⟨_, rfl⟩
  | ok response =>
      obtain ⟨first, hopens, hconnect, hrespond⟩ := opens_of_response hanswer
      by_cases hnext : ∃ location next, response.redirect = some location ∧
          hop < MAX_REDIRECTS ∧ texts.urljoin url location = .ok next
      · obtain ⟨location, next, hredirect, hlt, hjoin⟩ := hnext
        exact .inr ⟨first, location, next, response, hopens, hconnect, hrespond, hredirect, hlt,
          hjoin, fetchFrom_of_redirect contentType method body remaining hopens hconnect hrespond
            hredirect hlt hjoin⟩
      · left
        unfold fetchFrom
        dsimp only
        rw [hanswer]
        dsimp only
        cases hredirect : response.redirect with
        | none => exact ⟨_, rfl⟩
        | some location =>
            dsimp only
            by_cases hmax : MAX_REDIRECTS ≤ hop
            · rw [if_pos hmax]
              exact ⟨_, rfl⟩
            · rw [if_neg hmax]
              cases hjoin : texts.urljoin url location with
              | error error => exact ⟨_, rfl⟩
              | ok next => exact absurd ⟨location, next, hredirect, by omega, hjoin⟩ hnext

theorem reaches_of_mem {h : Hop} (hreach : Reaches texts network start hop url)
    (hmem : h ∈ (fetchFrom texts network contentType remaining hop url method body).1) :
    ∃ hop' url' method' body' redirect, Reaches texts network start hop' url' ∧
      h = { (fetchHop texts network contentType hop' url' method' body').1 with redirect } := by
  induction remaining generalizing hop url method body with
  | zero => cases hmem
  | succ remaining ih =>
      rcases fetchFrom_succ texts network contentType remaining hop url method body with
        ⟨result, heq⟩ | ⟨first, location, next, response, hopens, hconnect, hrespond, hredirect,
          hlt, hjoin, heq⟩
      · rw [heq] at hmem
        obtain rfl := List.mem_singleton.mp hmem
        exact ⟨hop, url, method, body, _, hreach, rfl⟩
      · rw [heq] at hmem
        rcases List.mem_cons.mp hmem with rfl | hmem
        · exact ⟨hop, url, method, body, _, hreach, rfl⟩
        · exact ih (.next hreach hopens hconnect hrespond hredirect hlt hjoin) hmem

/-- The fetch comes to every hop that redirects lead to. -/
theorem run_of_reaches (contentType method body : String)
    (hreach : Reaches texts network start hop url) : hop ≤ MAX_REDIRECTS ∧
      ∃ front method' body', (fetchFrom texts network contentType (MAX_REDIRECTS + 1) 0 start
        method body).1 = front ++ (fetchFrom texts network contentType (MAX_REDIRECTS + 1 - hop)
          hop url method' body').1 := by
  induction hreach with
  | start => exact ⟨Nat.zero_le _, [], method, body, rfl⟩
  | @next hop url first location next response _ hopens hconnect hrespond hredirect hlt hjoin ih =>
      obtain ⟨_, front, method', body', heq⟩ := ih
      refine ⟨hlt, ?_⟩
      have hremaining : MAX_REDIRECTS + 1 - hop = MAX_REDIRECTS + 1 - (hop + 1) + 1 := by omega
      rw [hremaining] at heq
      rw [fetchFrom_of_redirect contentType method' body' _ hopens hconnect hrespond hredirect hlt
        hjoin] at heq
      refine ⟨front ++ [{ (fetchHop texts network contentType hop url method' body').1 with
        redirect := some response.status }],
        if response.status ∈ [301, 302, 303] then "GET" else method',
        if response.status ∈ [301, 302, 303] then "" else body', ?_⟩
      rw [heq, List.append_assoc]
      rfl

theorem length_fetchFrom_le :
    ((fetchFrom texts network contentType remaining hop url method body).1.flatMap
      Hop.connections).length ≤ remaining := by
  induction remaining generalizing hop url method body with
  | zero => exact Nat.le_refl 0
  | succ remaining ih =>
      have hhead := length_connections_le texts network contentType hop url method body
      rcases fetchFrom_succ texts network contentType remaining hop url method body with
        ⟨result, heq⟩ | ⟨first, location, next, response, _, _, _, _, _, _, heq⟩
      · rw [heq, List.flatMap_singleton]
        omega
      · rw [heq, List.flatMap_cons, List.length_append]
        have htail : ((fetchFrom texts network contentType remaining (hop + 1) next
            (if response.status ∈ [301, 302, 303] then "GET" else method)
            (if response.status ∈ [301, 302, 303] then "" else body)).1.flatMap
              Hop.connections).length ≤ remaining := ih
        dsimp only
        omega

/-- Nothing is sent along with a plain request, nor after it. -/
theorem no_body_of_get {h : Hop} {request : Request}
    (hmem : h ∈ (fetchFrom texts network contentType remaining hop url "GET" body).1)
    (hrequest : request ∈ h.requests) : request.content = none := by
  induction remaining generalizing hop url body with
  | zero => cases hmem
  | succ remaining ih =>
      have hhead : ∀ r ∈ (fetchHop texts network contentType hop url "GET" body).1.requests,
          r.content = none := by
        intro r hr
        rw [request_of_mem hr]
        rfl
      rcases fetchFrom_succ texts network contentType remaining hop url "GET" body with
        ⟨result, heq⟩ | ⟨first, location, next, response, _, _, _, _, _, _, heq⟩
      · rw [heq] at hmem
        obtain rfl := List.mem_singleton.mp hmem
        exact hhead request hrequest
      · rw [heq, ite_self] at hmem
        rcases List.mem_cons.mp hmem with rfl | hmem
        · exact hhead request hrequest
        · exact ih hmem

theorem bodies_fetchFrom {front back : List Hop} {h : Hop} {request : Request}
    (hsplit : (fetchFrom texts network contentType remaining hop url method body).1 =
      front ++ h :: back) (hrequest : request ∈ h.requests) (hcontent : request.content.isSome) :
    ∀ g ∈ front, g.redirect = some 307 ∨ g.redirect = some 308 := by
  induction remaining generalizing hop url method body front with
  | zero => exact absurd hsplit (by simp [fetchFrom])
  | succ remaining ih =>
      cases front with
      | nil => exact fun g hg ↦ absurd hg List.not_mem_nil
      | cons g front =>
          rcases fetchFrom_succ texts network contentType remaining hop url method body with
            ⟨result, heq⟩ | ⟨first, location, next, response, _, _, _, hredirect, _, _, heq⟩
          · rw [heq] at hsplit
            simp at hsplit
          · rw [heq, List.cons_append] at hsplit
            obtain ⟨rfl, htail⟩ := List.cons.inj hsplit
            by_cases hget : response.status ∈ [301, 302, 303]
            · rw [if_pos hget] at htail
              have hmem : h ∈ front ++ h :: back := by simp
              rw [← htail] at hmem
              rw [no_body_of_get hmem hrequest] at hcontent
              cases hcontent
            · intro g hg
              rcases List.mem_cons.mp hg with rfl | hg
              · have hstatus : response.status ∈ [301, 302, 303, 307, 308] := by
                  by_contra hnot
                  unfold Response.redirect at hredirect
                  rw [if_neg hnot] at hredirect
                  cases hredirect
                simp only [List.mem_cons, List.not_mem_nil, or_false] at hstatus hget
                simp only [Option.some.injEq]
                omega
              · exact ih htail g hg

/-! ## What the checks let through -/

theorem accepted_iff {allow : Bool} {ip : String} : accepted texts allow ip = true ↔
    isPrivateIp texts.ipAddress ip = false ∨
      isFakeIpProxyAddress texts.ipAddress ip = true ∧ allow = true := by
  unfold accepted
  cases isPrivateIp texts.ipAddress ip <;> cases isFakeIpProxyAddress texts.ipAddress ip <;>
    cases allow <;> decide

/-- An address that is let through is a good one, or shared, or of a site. -/
theorem routable_of_accepted {allow : Bool} {ip : String}
    (h : accepted texts allow ip = true) : ∃ a, texts.ipAddress ip = some a ∧
      (a.SharedOrSiteLocal ∨ a.Routable ∨ a.inFakeIpProxyNetwork = true ∧ allow = true) := by
  rcases accepted_iff.mp h with hpublic | ⟨hfake, hallow⟩
  · unfold isPrivateIp at hpublic
    cases ha : texts.ipAddress ip with
    | none =>
        rw [ha] at hpublic
        cases hpublic
    | some a =>
        rw [ha, Option.all_some] at hpublic
        rcases routable_of_not_refused hpublic with hroutable | hshared
        · exact ⟨a, rfl, .inr (.inl hroutable)⟩
        · exact ⟨a, rfl, .inl hshared⟩
  · unfold isFakeIpProxyAddress at hfake
    cases ha : texts.ipAddress ip with
    | none =>
        rw [ha] at hfake
        cases hfake
    | some a =>
        rw [ha, Option.any_some] at hfake
        exact ⟨a, rfl, .inr (.inr ⟨hfake, hallow⟩)⟩

variable (contentType method body) in
theorem hop_of_opens (h : Opens texts network hop url first) (redirect : Option ℕ) :
    let here : Hop :=
      { (fetchHop texts network contentType hop url method body).1 with redirect }
    here.connections = [first] ∧ (∃ addresses, here.lookups = [.ok addresses] ∧
      first ∈ addresses ∧ ∀ ip ∈ addresses, isPrivateIp texts.ipAddress ip = false ∨
        isFakeIpProxyAddress texts.ipAddress ip = true ∧ here.https texts) ∧
    ∃ a, texts.ipAddress first = some a ∧
      (a.SharedOrSiteLocal ∨ a.Routable ∨ a.inFakeIpProxyNetwork = true ∧ here.https texts) := by
  intro here
  obtain ⟨rest, requests, heq, ⟨parts, hsplit, hall⟩, _⟩ :=
    fetchHop_of_opens contentType method body h
  have hurl : here.url = url := by
    change (fetchHop texts network contentType hop url method body).1.url = url
    rw [heq]
  have hhttps : (parts.scheme == "https") = true → here.https texts := by
    intro hscheme
    exact ⟨parts, by rw [hurl, hsplit], beq_iff_eq.mp hscheme⟩
  refine ⟨?_, ⟨first :: rest, ?_, List.mem_cons_self, ?_⟩, ?_⟩
  · change (fetchHop texts network contentType hop url method body).1.connections = _
    rw [heq]
  · change (fetchHop texts network contentType hop url method body).1.lookups = _
    rw [heq]
  · intro ip hip
    rcases accepted_iff.mp (hall ip hip) with hpublic | ⟨hfake, hscheme⟩
    · exact .inl hpublic
    · exact .inr ⟨hfake, hhttps hscheme⟩
  · obtain ⟨a, ha, hkind⟩ := routable_of_accepted (hall first List.mem_cons_self)
    refine ⟨a, ha, ?_⟩
    rcases hkind with hshared | hroutable | ⟨hfake, hscheme⟩
    · exact .inl hshared
    · exact .inr (.inl hroutable)
    · exact .inr (.inr ⟨hfake, hhttps hscheme⟩)

/-- A fetch reaches public addresses alone just when no hop that the redirects lead to, and for
which it connects, is answered with a shared address or one of a site first. -/
theorem publicOnly_iff (texts : Texts) (network : Network)
    (contentType url method body : String) :
    PublicOnly texts (webFetch texts network contentType url method body).1 ↔
      (texts.upper method ∈ ["GET", "POST"] →
        ∀ hop url' first, Reaches texts network url hop url' →
          Opens texts network hop url' first →
            ∀ a, texts.ipAddress first = some a → ¬a.SharedOrSiteLocal) := by
  unfold webFetch
  dsimp only
  by_cases hmethod : texts.upper method ∈ ["GET", "POST"]
  · rw [if_neg (not_not_intro hmethod)]
    constructor
    · intro hpublic _ hop url' first hreach hopens a ha hshared
      obtain ⟨hle, front, method', body', heq⟩ :=
        run_of_reaches contentType (texts.upper method) body hreach
      have hremaining : MAX_REDIRECTS + 1 - hop = MAX_REDIRECTS - hop + 1 := by omega
      rw [hremaining] at heq
      obtain ⟨redirect, hmem⟩ : ∃ redirect,
          { (fetchHop texts network contentType hop url' method' body').1 with redirect } ∈
            (fetchFrom texts network contentType (MAX_REDIRECTS + 1) 0 url (texts.upper method)
              body).1 := by
        rw [heq]
        rcases fetchFrom_succ texts network contentType (MAX_REDIRECTS - hop) hop url' method'
            body' with ⟨result, hhop⟩ | ⟨_, _, _, response, _, _, _, _, _, _, hhop⟩
        · refine ⟨(fetchHop texts network contentType hop url' method' body').1.redirect, ?_⟩
          rw [hhop]
          simp
        · refine ⟨some response.status, ?_⟩
          rw [hhop]
          simp
      obtain ⟨hconnections, _, _⟩ := hop_of_opens contentType method' body' hopens redirect
      obtain ⟨b, hb, hkind⟩ := hpublic.routable _ hmem first
        (by rw [hconnections]; exact List.mem_singleton_self first)
      obtain rfl := Option.some.inj (ha.symm.trans hb)
      rcases hkind with hroutable | ⟨hfake, _⟩
      · exact not_routable_of_shared hshared hroutable
      · rw [not_fake_of_shared hshared] at hfake
        cases hfake
    · intro hclean
      have hopens : ∀ h ∈ (fetchFrom texts network contentType (MAX_REDIRECTS + 1) 0 url
          (texts.upper method) body).1, ∀ address ∈ h.connections, ∃ hop url' method' body' redirect,
            Reaches texts network url hop url' ∧ Opens texts network hop url' address ∧
            h = { (fetchHop texts network contentType hop url' method' body').1 with
              redirect } := by
        intro h hmem address haddress
        obtain ⟨hop, url', method', body', redirect, hreach, rfl⟩ := reaches_of_mem .start hmem
        exact ⟨hop, url', method', body', redirect, hreach, opens_of_mem haddress, rfl⟩
      refine ⟨?_, ?_, length_fetchFrom_le, ?_⟩
      · intro h hmem address haddress
        obtain ⟨hop, url', method', body', redirect, _, hopen, rfl⟩ :=
          hopens h hmem address haddress
        exact (hop_of_opens contentType method' body' hopen redirect).2.1
      · intro h hmem address haddress
        obtain ⟨hop, url', method', body', redirect, hreach, hopen, rfl⟩ :=
          hopens h hmem address haddress
        obtain ⟨a, ha, hkind⟩ := (hop_of_opens contentType method' body' hopen redirect).2.2
        exact ⟨a, ha, hkind.resolve_left
          (hclean hmethod hop url' address hreach hopen a ha)⟩
      · rintro front h back hsplit _ ⟨request, hrequest, hcontent⟩
        exact bodies_fetchFrom hsplit hrequest hcontent
  · rw [if_pos hmethod]
    refine ⟨fun _ hmem ↦ absurd hmem hmethod, fun _ ↦ ⟨?_, ?_, Nat.zero_le _, ?_⟩⟩
    · exact fun h hmem ↦ absurd hmem List.not_mem_nil
    · exact fun h hmem ↦ absurd hmem List.not_mem_nil
    · intro front h back hsplit
      simp at hsplit

namespace Shared

def page : String := "https://intranet.example/"

def python : Texts where
  upper := id
  lower := id
  repr := id
  urlsplit url :=
    if url = page then
      .ok { scheme := "https", hostname := "intranet.example", username := none, password := none }
    else .error "invalid URL"
  urljoin _ location := .ok location
  ipAddress ip :=
    if ip = "100.64.0.1" then some (.v4 ⟨quad 100 64 0 1, by decide⟩) else none

def provider : Network where
  getaddrinfo _ _ := .ok ["100.64.0.1"]
  dial _ _ := .ok "intranet.example"
  connect _ _ := .ok ()
  respond _ := .ok { status := 200, location := none, headers := [], chunks := [], failure := none }

/-- A host with an address shared between a provider and its customers is connected to. -/
theorem not_publicOnly :
    ¬PublicOnly python (webFetch python provider "application/json" page "GET" "").1 := by
  intro h
  have hconnections : (webFetch python provider "application/json" page "GET" "").1.map
      Hop.connections = [["100.64.0.1"]] := by decide +kernel
  obtain ⟨here, hmem, hhere⟩ : ∃ here ∈ (webFetch python provider "application/json" page "GET"
      "").1, here.connections = ["100.64.0.1"] := by
    rw [← List.mem_map, hconnections]
    exact List.mem_singleton_self _
  obtain ⟨a, ha, hkind⟩ := h.routable here hmem "100.64.0.1" (by rw [hhere]; simp)
  obtain rfl : IPAddress.v4 ⟨quad 100 64 0 1, by decide⟩ = a := Option.some.inj ha
  have hshared : (IPAddress.v4 ⟨quad 100 64 0 1, by decide⟩).SharedOrSiteLocal :=
    ⟨by decide, by decide⟩
  rcases hkind with hroutable | ⟨hfake, _⟩
  · exact not_routable_of_shared hshared hroutable
  · rw [not_fake_of_shared hshared] at hfake
    cases hfake

end Shared

end ShejaneRuntime.WebFetch
