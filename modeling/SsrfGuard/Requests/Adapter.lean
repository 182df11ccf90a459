import SsrfGuard.Redirect.CallEgress
import SsrfGuard.Redirect.CallUnobserved

/-! # Adapters and their pools

urllib3 makes a connection from a pool, and a pool from a class it finds in a table of its pool manager, by scheme.
All managers of a process share one table, the one of urllib3's module, until somebody gives them another.
`SafeAdapter` gives its manager a table of its own, whose classes close over the policy: it replaces what the manager
refers to and writes to no table, so urllib3's own is what it was, and whatever asks one of the adapter's pools for a
connection, on whatever route, goes through `_pinned_socket`. A proxy has a pool manager of its own, which has never
heard of the policy; `send` refuses a request a proxy applies to. -/

namespace SsrfGuard

variable {σ υ : Type} (U : Unicode) (C : HttpLibraries υ)

/-! ## Pool classes -/

/-- What the classes of an adapter close over. -/
structure Guard (σ : Type) where
  /-- `policy`. -/
  policy : Policy
  /-- `resolver`, or `getaddrinfo` where there is none. -/
  resolver : Resolver σ
  /-- `observer`. -/
  observer : Option (Observer σ)

/-- A class of connection pools. -/
inductive PoolClass (σ : Type)
  /-- `HTTPConnectionPool` or `HTTPSConnectionPool` of urllib3. -/
  | stock (scheme : Str)
  /-- `PinnedHTTPConnectionPool` or `PinnedHTTPSConnectionPool`. -/
  | pinned (scheme : Str) (guard : Guard σ)

/-- A `pool_classes_by_scheme`. -/
abbrev PoolTable (σ : Type) : Type := List (Str × PoolClass σ)

/-- `_pool_classes`. -/
def poolClasses (guard : Guard σ) : PoolTable σ :=
  [(text "http", .pinned (text "http") guard), (text "https", .pinned (text "https") guard)]

/-- `urllib3.poolmanager.pool_classes_by_scheme`. -/
def stockPoolClasses : PoolTable σ :=
  [(text "http", .stock (text "http")), (text "https", .stock (text "https"))]

/-- The class of a scheme. -/
def PoolTable.find (table : PoolTable σ) (scheme : Str) : Option (PoolClass σ) :=
  (List.find? (·.1 == scheme) table).map Prod.snd

/-- `_new_conn` of the connections of a class. urllib3's own is whatever it is. -/
def PoolClass.newConn (stock : HTTPConnection → Prog (World σ) SeamExc SockId) (kernel : Kernel σ)
    (audit : Prog σ Exc Unit) (connection : HTTPConnection) : PoolClass σ → Prog (World σ) SeamExc SockId
  | .stock _ => stock connection
  | .pinned scheme guard =>
    pinnedSocket U guard.policy { connection with scheme := scheme } guard.resolver kernel audit guard.observer

/-! ## The objects of a process -/

/-- A `SafeAdapter`: what it guards with, and its `poolmanager`. -/
structure SafeAdapter (σ : Type) where
  /-- `policy`, `resolver` and `observer`. -/
  guard : Guard σ
  /-- Which of the managers. -/
  poolmanager : ℕ

/-- The objects of a process that pool classes are found through, in the order they were made in. Managers refer to
tables, so two of them can share one. -/
structure Process (σ : Type) where
  /-- The tables, the one of urllib3's module first. -/
  tables : List (PoolTable σ)
  /-- The pool managers: which table each refers to. -/
  managers : List ℕ
  /-- The adapters. -/
  adapters : List (SafeAdapter σ)

namespace Process

/-- `pool_classes_by_scheme` of a manager. -/
def tableOf (process : Process σ) (manager : ℕ) : Option (PoolTable σ) :=
  process.managers[manager]?.bind fun table => process.tables[table]?

/-- Other objects were made, and those that were there are what they were. -/
structure Extends (process later : Process σ) : Prop where
  /-- Tables are written to by nobody. -/
  tables : process.tables <+: later.tables
  /-- Managers keep their table. -/
  managers : process.managers <+: later.managers
  /-- No adapter was made. -/
  adapters : later.adapters = process.adapters

end Process

/-- `HTTPAdapter.init_poolmanager` of requests: a new manager, with whatever table urllib3 gives it. -/
structure Requests (σ : Type) where
  /-- The manager, and the process after it was made. -/
  initPoolmanager : Process σ → ℕ × Process σ
  /-- It is one manager more. -/
  extends_of_init : ∀ process : Process σ, process.Extends (initPoolmanager process).2
  /-- It is the new one. -/
  manager_new : ∀ process : Process σ, (initPoolmanager process).1 = process.managers.length ∧
    (initPoolmanager process).2.managers.length = process.managers.length + 1

variable (requests : Requests σ)

/-- `init_poolmanager`: the manager requests makes, with a table of its own in place of the one it was given. -/
def SafeAdapter.initPoolmanager (guard : Guard σ) (process : Process σ) : ℕ × Process σ :=
  let (poolmanager, made) := requests.initPoolmanager process
  (poolmanager,
    { made with
      tables := made.tables ++ [poolClasses guard]
      managers := made.managers.set poolmanager made.tables.length })

/-- `SafeAdapter(...)`. Restoring a pickled one is the same: `__attrs__` names what it guards with, and
`__setstate__` makes the manager anew. -/
def SafeAdapter.init (guard : Guard σ) (process : Process σ) : Process σ :=
  let (poolmanager, made) := SafeAdapter.initPoolmanager requests guard process
  { made with adapters := made.adapters ++ [{ guard := guard, poolmanager := poolmanager }] }

/-- A step of a process: an adapter is made, or other code makes tables and managers of its own. -/
inductive Process.Step (process : Process σ) : Process σ → Prop
  /-- `SafeAdapter(...)`, by a `Session` or not. -/
  | adapter (guard : Guard σ) : Process.Step process (SafeAdapter.init requests guard process)
  /-- Stock adapters and sessions, and other users of urllib3. -/
  | other {later : Process σ} (h : process.Extends later) : Process.Step process later

/-- A process that has imported urllib3, and made no adapter yet. -/
structure Process.Imported (process : Process σ) : Prop where
  /-- The table of urllib3's module. -/
  own : process.tables.head? = some stockPoolClasses
  /-- No adapter. -/
  adapters : process.adapters = []

/-- A state a process comes to. -/
def Process.Reachable (process : Process σ) : Prop :=
  ∃ start : Process σ, start.Imported ∧ Relation.ReflTransGen (Process.Step requests) start process

/-! ## Every adapter has its own table -/

/-- urllib3's table is its own, and every adapter finds its classes where it looks. -/
structure Process.Pinned (process : Process σ) : Prop where
  /-- The table of urllib3's module is as it was imported. -/
  own : process.tables.head? = some stockPoolClasses
  /-- The manager of an adapter refers to the classes that close over what it guards with. -/
  adapters : ∀ adapter ∈ process.adapters, process.tableOf adapter.poolmanager = some (poolClasses adapter.guard)

variable {requests} {process later : Process σ}

theorem getElem?_of_isPrefix {α : Type} {l l' : List α} (h : l <+: l') {i : ℕ} {a : α} (ha : l[i]? = some a) :
    l'[i]? = some a := by
  obtain ⟨hi, rfl⟩ := List.getElem?_eq_some_iff.mp ha
  exact List.prefix_iff_getElem?.mp h i hi

theorem head?_of_isPrefix {α : Type} {l l' : List α} (h : l <+: l') {a : α} (ha : l.head? = some a) :
    l'.head? = some a := by
  rw [List.head?_eq_getElem?] at ha ⊢
  exact getElem?_of_isPrefix h ha

/-- What a manager refers to is not changed by what other code does. -/
theorem Process.Extends.tableOf (h : process.Extends later) {manager : ℕ} {table : PoolTable σ}
    (htable : process.tableOf manager = some table) : later.tableOf manager = some table := by
  obtain ⟨reference, hreference, hfound⟩ := Option.bind_eq_some_iff.mp htable
  exact Option.bind_eq_some_iff.mpr
    ⟨reference, getElem?_of_isPrefix h.managers hreference, getElem?_of_isPrefix h.tables hfound⟩

theorem Process.Extends.pinned (h : process.Extends later) (hpinned : process.Pinned) : later.Pinned := by
  refine ⟨head?_of_isPrefix h.tables hpinned.own, ?_⟩
  rw [h.adapters]
  exact fun adapter hadapter => h.tableOf (hpinned.adapters adapter hadapter)

/-- Giving the newest manager a new table leaves the tables of the others alone. -/
theorem SafeAdapter.tableOf_initPoolmanager (guard : Guard σ) {manager : ℕ} {table : PoolTable σ}
    (htable : process.tableOf manager = some table) :
    (SafeAdapter.initPoolmanager requests guard process).2.tableOf manager = some table := by
  have hmade := (requests.extends_of_init process).tableOf htable
  obtain ⟨reference, hreference, hfound⟩ := Option.bind_eq_some_iff.mp hmade
  obtain ⟨old, hold, -⟩ := Option.bind_eq_some_iff.mp htable
  have hlt : manager < process.managers.length := (List.getElem?_eq_some_iff.mp hold).1
  -- the manager is an older one than the new one
  have hother : (requests.initPoolmanager process).1 ≠ manager := by
    rw [(requests.manager_new process).1]
    omega
  refine Option.bind_eq_some_iff.mpr ⟨reference, ?_, getElem?_of_isPrefix (List.prefix_append _ _) hfound⟩
  exact (List.getElem?_set_ne hother).trans hreference

/-- The new manager finds the classes of its adapter. -/
theorem SafeAdapter.tableOf_new (guard : Guard σ) :
    (SafeAdapter.initPoolmanager requests guard process).2.tableOf
      (SafeAdapter.initPoolmanager requests guard process).1 = some (poolClasses guard) := by
  obtain ⟨hnew, hlength⟩ := requests.manager_new process
  have hlt : (requests.initPoolmanager process).1 < (requests.initPoolmanager process).2.managers.length := by omega
  exact Option.bind_eq_some_iff.mpr
    ⟨(requests.initPoolmanager process).2.tables.length, List.getElem?_set_self hlt, List.getElem?_concat_length⟩

/-- **A step keeps the adapters pinned.** -/
theorem Process.Step.pinned (h : Process.Step requests process later) (hpinned : process.Pinned) : later.Pinned := by
  cases h with
  | other hextends => exact hextends.pinned hpinned
  | adapter guard =>
      refine ⟨?_, fun adapter hadapter => ?_⟩
      · have hmade := head?_of_isPrefix (requests.extends_of_init process).tables hpinned.own
        exact head?_of_isPrefix (List.prefix_append _ _) hmade
      · rcases List.mem_append.mp hadapter with hold | hnew
        · have hbefore : adapter ∈ process.adapters := by
            rw [← (requests.extends_of_init process).adapters]
            exact hold
          exact SafeAdapter.tableOf_initPoolmanager guard (hpinned.adapters adapter hbefore)
        · obtain rfl := List.mem_singleton.mp hnew
          exact SafeAdapter.tableOf_new guard

/-- So they are pinned in every state a process comes to. -/
theorem Process.Reachable.pinned (h : Process.Reachable requests process) : process.Pinned := by
  obtain ⟨start, himported, hrun⟩ := h
  induction hrun with
  | refl => exact ⟨himported.own, fun adapter hadapter => by rw [himported.adapters] at hadapter; cases hadapter⟩
  | tail _ hstep ih => exact hstep.pinned ih

/-! ## Sending -/

/-- What requests does with a request: `select_proxy` of its URL and the merged mapping, the way through a proxy, and
the exchange over the adapter's own pools. -/
structure Transmission (σ υ : Type) where
  /-- The proxy that applies, if one does. -/
  selectProxy : Request υ → Option Str
  /-- Through the proxy's own pool manager. -/
  viaProxy : Request υ → Prog σ SeamExc (Option (Hop υ))
  /-- Over a pool of the adapter. -/
  direct : Exchange σ υ HTTPConnection SockId SeamExc
  /-- What urllib3 raises for a scheme that is not in the table. -/
  unknownScheme : Str → SeamExc

/-- The proxy of `if proxy`: one that is not the empty text. -/
def Transmission.proxy (transmission : Transmission σ υ) (request : Request υ) : Option Str :=
  (transmission.selectProxy request).filter (· ≠ [])

section Sending

variable (stock : HTTPConnection → Prog (World σ) SeamExc SockId) (kernel : Kernel σ) (audit : Prog σ Exc Unit)
  (transmission : Transmission σ υ) (process : Process σ) (adapter : SafeAdapter σ)

/-- A connection of one of the adapter's pools: the class is looked up in the table of its manager. -/
def SafeAdapter.newConn (connection : HTTPConnection) : Prog (World σ) SeamExc SockId :=
  match (process.tableOf adapter.poolmanager).bind fun table => table.find connection.scheme with
  | some poolClass => poolClass.newConn U stock kernel audit connection
  | none => throw (transmission.unknownScheme connection.scheme)

/-- `HTTPAdapter.send` of requests. -/
def HTTPAdapter.send (request : Request υ) : Prog (World σ) SeamExc (Option (Hop υ)) :=
  match transmission.proxy request with
  | some _ => Prog.zoom World.env (fun w env => { w with env := env }) (transmission.viaProxy request)
  | none => transmission.direct.send World.env (fun w env => { w with env := env })
      (SafeAdapter.newConn U stock kernel audit transmission process adapter) request

/-- `get_adapter`, which checks the URL, and then `send`, which refuses a proxied request first. -/
def SafeAdapter.sendProxied (request : Request υ) : Prog (World σ) SeamExc (Option (Hop υ)) := do
  let _ ← Prog.mapError .untranslated
    (adapter.guard.policy.checkUrl U (C.str request.url) (outside adapter.guard.observer))
  match transmission.proxy request with
  | some proxy =>
    if adapter.guard.policy.allowProxy then HTTPAdapter.send U stock kernel audit transmission process adapter request
    else throw (.untranslated (.proxyUnsupportedError proxy))
  | none => HTTPAdapter.send U stock kernel audit transmission process adapter request

/-- A call on a session with this adapter mounted, with whatever proxies. -/
def Session.callProxied (own : ℤ) (following : Bool) (request : Request υ) (w : World σ) :
    Called υ (World σ) SeamExc :=
  Agent.call U C adapter.guard.policy .session own following (outside adapter.guard.observer)
    (SafeAdapter.sendProxied U C stock kernel audit transmission process adapter) [] request w

end Sending

/-! ## What is sent -/

variable {U C} {stock : HTTPConnection → Prog (World σ) SeamExc SockId} {kernel : Kernel σ}
  {audit : Prog σ Exc Unit} {transmission : Transmission σ υ} {adapter : SafeAdapter σ}

theorem find_poolClasses (guard : Guard σ) (scheme : Str) :
    (poolClasses guard).find scheme =
      if scheme = text "http" ∨ scheme = text "https" then some (.pinned scheme guard) else none := by
  unfold PoolTable.find poolClasses
  by_cases hhttp : scheme = text "http"
  · rw [if_pos (.inl hhttp), hhttp]
    rfl
  · rw [List.find?_cons_of_neg (by simpa using Ne.symm hhttp)]
    by_cases hhttps : scheme = text "https"
    · rw [if_pos (.inr hhttps), hhttps]
      rfl
    · rw [List.find?_cons_of_neg (by simpa using Ne.symm hhttps), if_neg (not_or.mpr ⟨hhttp, hhttps⟩)]
      rfl

/-- Whatever an adapter's pools are asked for, either there is no class for it or `_pinned_socket` answers. -/
theorem Process.Pinned.newConn_cases (hpinned : process.Pinned) (hadapter : adapter ∈ process.adapters)
    (connection : HTTPConnection) :
    SafeAdapter.newConn U stock kernel audit transmission process adapter connection =
        throw (transmission.unknownScheme connection.scheme) ∨
      SafeAdapter.newConn U stock kernel audit transmission process adapter connection =
        pinnedSocket U adapter.guard.policy connection adapter.guard.resolver kernel audit adapter.guard.observer := by
  unfold SafeAdapter.newConn
  rw [hpinned.adapters adapter hadapter, Option.bind_some, find_poolClasses]
  split_ifs
  · exact .inr rfl
  · exact .inl rfl

theorem Process.Pinned.follows_newConn (hpinned : process.Pinned) (hadapter : adapter ∈ process.adapters)
    (connection : HTTPConnection) :
    Follows U adapter.guard.policy (·.settled = true)
      (SafeAdapter.newConn U stock kernel audit transmission process adapter connection)
      (fun sock s => ∃ rest, s = .verified sock rest) fun _ => (·.settled = true) := by
  rcases hpinned.newConn_cases hadapter connection with h | h
  · rw [h]
    exact Prog.Obeys.throw fun _ => id
  · rw [h]
    exact follows_pinnedSocket connection adapter.guard.resolver kernel audit adapter.guard.observer

theorem Process.Pinned.adds_newConn (hpinned : process.Pinned) (hadapter : adapter ∈ process.adapters)
    (connection : HTTPConnection) :
    Prog.Adds World.trace (SafeAdapter.newConn U stock kernel audit transmission process adapter connection)
      fun _ added => added.countP Action.isLookup ≤ 1 := by
  rcases hpinned.newConn_cases hadapter connection with h | h
  · rw [h]
    exact Prog.Adds.throw (Nat.zero_le _)
  · rw [h]
    exact adds_pinnedSocket connection adapter.guard.resolver kernel audit adapter.guard.observer

/-- The exchange of an adapter that refuses proxies. -/
def Transmission.refusing (transmission : Transmission σ υ) : Exchange σ υ HTTPConnection SockId SeamExc where
  dial request :=
    match transmission.proxy request with
    | some proxy => throw (.untranslated (.proxyUnsupportedError proxy))
    | none => transmission.direct.dial request
  converse := transmission.direct.converse

theorem Transmission.dial_of_proxy {request : Request υ} {proxy : Str} (h : transmission.proxy request = some proxy) :
    transmission.refusing.dial request = throw (.untranslated (.proxyUnsupportedError proxy)) := by
  rw [Transmission.refusing]
  dsimp only
  rw [h]

theorem Transmission.dial_of_direct {request : Request υ} (h : transmission.proxy request = none) :
    transmission.refusing.dial request = transmission.direct.dial request := by
  rw [Transmission.refusing]
  dsimp only
  rw [h]

/-- Where the policy permits no proxy, the adapter sends as if requests refused to dial through one. -/
theorem SafeAdapter.sendProxied_eq (hproxy : adapter.guard.policy.allowProxy = false) (request : Request υ) :
    SafeAdapter.sendProxied U C stock kernel audit transmission process adapter request =
      checkedSend U C adapter.guard.policy .untranslated adapter.guard.observer transmission.refusing
        (SafeAdapter.newConn U stock kernel audit transmission process adapter) request := by
  unfold SafeAdapter.sendProxied checkedSend
  refine bind_congr fun _ => ?_
  rw [Exchange.send]
  cases happlies : transmission.proxy request with
  | some proxy =>
      rw [Transmission.dial_of_proxy happlies]
      dsimp only
      rw [if_neg (Bool.eq_false_iff.mp hproxy)]
      rfl
  | none =>
      rw [Transmission.dial_of_direct happlies, HTTPAdapter.send, happlies]
      rfl

/-- A request that a proxy applies to is not answered. -/
theorem SafeAdapter.proxy_of_sendProxied (hproxy : adapter.guard.policy.allowProxy = false) {request : Request υ}
    {w w' : World σ} {answer : Option (Hop υ)}
    (h : (SafeAdapter.sendProxied U C stock kernel audit transmission process adapter request).exec w =
      (.ok answer, w')) : transmission.proxy request = none := by
  rw [SafeAdapter.sendProxied, Prog.exec_bind] at h
  cases happlies : transmission.proxy request with
  | none => rfl
  | some proxy =>
      rw [happlies, hproxy] at h
      split at h
      · exact absurd (congrArg Prod.fst h) Except.error_ne_ok
      · exact absurd (congrArg Prod.fst h) Except.error_ne_ok

/-- **Adapters pin their own pools.** In every state a process comes to by making and restoring adapters, and by other
code making managers and tables of its own, urllib3's table is as it was imported, and every connection of an
adapter's pools, on whatever route it was asked for, follows the protocol of the seam under the adapter's own policy.
A call on a session with an adapter whose policy permits no proxy is guarded by that policy, whatever proxies are
configured, and every request it got an answer to was one no proxy applies to. -/
theorem Session.callProxied_guarded (U : Unicode) (C : HttpLibraries υ) (requests : Requests σ) (process : Process σ)
    (hreach : Process.Reachable requests process) (adapter : SafeAdapter σ) (hadapter : adapter ∈ process.adapters)
    (stock : HTTPConnection → Prog (World σ) SeamExc SockId) (kernel : Kernel σ) (audit : Prog σ Exc Unit)
    (transmission : Transmission σ υ) :
    process.tables.head? = some stockPoolClasses ∧
    (∀ connection, Follows U adapter.guard.policy (·.settled = true)
      (SafeAdapter.newConn U stock kernel audit transmission process adapter connection)
      (fun sock s => ∃ rest, s = .verified sock rest) fun _ => (·.settled = true)) ∧
    (adapter.guard.policy.allowProxy = false → ∀ own following request (w : World σ),
      let called := Session.callProxied U C stock kernel audit transmission process adapter own following request w
      called.Guarded U C adapter.guard.policy w ∧
        called.Answered fun request => transmission.proxy request = none) := by
  have hpinned := hreach.pinned
  refine ⟨hpinned.own, hpinned.follows_newConn hadapter, fun hproxy own following request w => ⟨?_, ?_⟩⟩
  · refine Agent.guarded_call (fun request w => ?_) (fun request => ?_) .session own following request w
    · rw [SafeAdapter.sendProxied_eq hproxy]
      exact along_checkedSend (hpinned.follows_newConn hadapter) (hpinned.adds_newConn hadapter) request w
    · rw [SafeAdapter.sendProxied_eq hproxy]
      exact (adds_checkedSend (hpinned.adds_newConn hadapter) request).conseq fun _ _ h => h.1
  · exact Agent.answered_call (fun request w w' answer h => SafeAdapter.proxy_of_sendProxied hproxy h) [] request w

/-- urllib3 gives a new manager the table of its module. -/
def sharingRequests : Requests σ where
  initPoolmanager process :=
    (process.managers.length, { process with managers := process.managers ++ [0] })
  extends_of_init _ := ⟨List.prefix_refl _, List.prefix_append _ _, rfl⟩
  manager_new _ := ⟨rfl, List.length_append⟩

/-- A process that has imported urllib3. -/
def importedProcess : Process Unit := { tables := [stockPoolClasses], managers := [], adapters := [] }

/-- The default policy, with a resolver that always answers the same. -/
def defaultGuard : Guard Unit :=
  { policy := Policy.default, resolver := fun _ _ _ _ _ _ => pure listedTwice, observer := none }

/-- Two adapters, whose managers were first given the same table. -/
def twoAdapters : Process Unit :=
  SafeAdapter.init sharingRequests defaultGuard (SafeAdapter.init sharingRequests defaultGuard importedProcess)

/-- A proxy for every request, from the environment. -/
def proxiedTransmission : Transmission Unit Location where
  selectProxy _ := some (text "http://127.0.0.1:3128")
  viaProxy _ := pure none
  direct := { dial := fun _ => pure none, converse := fun _ _ => pure none }
  unknownScheme scheme := .untranslated (.valueError scheme)

/-- With a proxy in the environment a request over the second of two adapters is not answered, and urllib3's table is
not written to. -/
theorem Session.callProxied_guarded_twoAdapters :
    twoAdapters.tables.head? = some stockPoolClasses ∧
    (Session.callProxied Unicode.ascii plainLibraries (fun _ => pure 0) publicKernel (pure ()) proxiedTransmission
      twoAdapters { guard := defaultGuard, poolmanager := 1 } 30 true requestA World.start).Answered
        fun _ => False := by
  have hreach : Process.Reachable sharingRequests twoAdapters :=
    ⟨importedProcess, ⟨rfl, rfl⟩, .tail (.tail .refl (.adapter defaultGuard)) (.adapter defaultGuard)⟩
  obtain ⟨hown, -, hcall⟩ := Session.callProxied_guarded Unicode.ascii plainLibraries sharingRequests twoAdapters
    hreach { guard := defaultGuard, poolmanager := 1 } (List.mem_cons_of_mem _ List.mem_cons_self) (fun _ => pure 0)
    publicKernel (pure ()) proxiedTransmission
  obtain ⟨-, hbefore, hlast⟩ := hcall rfl 30 true requestA World.start
  refine ⟨hown, fun request hrequest => ?_, fun request hrequest => (hlast request hrequest).imp (fun h => ?_) id⟩
  · cases hbefore request hrequest
  · cases h

end SsrfGuard
