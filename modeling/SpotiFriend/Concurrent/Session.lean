import SpotiFriend.Async.Jobs
import SpotiFriend.Async.Run
import SpotiFriend.Spec.Actions
import SpotiFriend.Spec.Documents

/-!
# Whose data the singleton holds

`getUserInfo` clears the singleton at once and fills it when the result of its query
arrives, whoever is signed in by then.  `OwnData` says that the singleton holds nothing
but data of the account that is signed in.

Main results, for a device on which accounts are made, signed in to and signed out of and
the map appears, while no call fails:

* `step_session`: a result of the account itself keeps `OwnData`;
* `ownData_of_run`: so it holds throughout, provided no foreign result arrives;
* `ownData_foreign`: a result of an earlier session breaks it.
-/

namespace SpotiFriend

open Async MapVC

/-- The singleton holds the reset values and values of the document `f`, and no email
but the given one. -/
structure Own (u : UserSingleton) (email : String) (f : Fields) : Prop where
  email : u.email = UserSingleton.reset.email ∨ u.email = email
  username : u.username = UserSingleton.reset.username ∨ getString f .username = some u.username
  profilePicURL : u.profilePicURL = UserSingleton.reset.profilePicURL ∨
    getString f .profilePicURL = some u.profilePicURL
  mapRadius : u.mapRadius = UserSingleton.reset.mapRadius ∨
    ∃ radius, getDouble f .mapRadius = some radius ∧ u.mapRadius = radius.mul (.fin 1609)
  totalPlaylistsCreated : u.totalPlaylistsCreated = UserSingleton.reset.totalPlaylistsCreated ∨
    getInt f .totalPlaylistsCreated = some u.totalPlaylistsCreated
  totalPlaylistsFound : u.totalPlaylistsFound = UserSingleton.reset.totalPlaylistsFound ∨
    getInt f .totalPlaylistsFound = some u.totalPlaylistsFound

/-- Since the map has appeared, the singleton of the device is reset, or it holds the data
of a `userInfo` document with the email of the account that is signed in. -/
def OwnData (b : Backend) (d : Device) : Prop :=
  d.mapShown = true → d.sharedUserInfo = .reset ∨ ∃ user id f, d.currentUser = some user ∧
    b.doc? .userInfo id = some f ∧ f .email = some (.string user.email) ∧
    Own d.sharedUserInfo user.email f

/-! ### The guard -/

/-- The moves of a device on which accounts are made, signed in to and signed out of and
the map appears, with no call failing. -/
def sessions (c : ℕ) : Label → Bool
  | .event c' e => c' = c && match e with
    | .signUpClicked _ | .logInClicked _ | .logOutClicked _ | .viewWillAppear | .editText _ _ _ =>
      true
    | _ => false
  | .fail _ _ => false
  | _ => true

def oneDocument (b : Backend) : Bool :=
  b.accounts.docs.all (fun a => (b.getDocuments (.userInfo a.data.email)).length ≤ 1)

/-- The document has what `getUserInfo` asks for. -/
def loadable (f : Fields) : Bool :=
  (getString f .username).isSome && (getString f .email).isSome

/-- Since the map has appeared, no data of another account is loaded, and no other account
is signed in over the data of this one. -/
def ownResult (d : Device) : Job → Bool
  | ⟨_, .getUserInfo email, some (.ok docs)⟩ =>
    !d.mapShown || d.currentUser.map User.email = some email ||
      docs.all (fun doc => !loadable doc.data)
  | ⟨_, .createUser _ _ _, some (.ok user)⟩ | ⟨_, .signIn _ _, some (.ok user)⟩ =>
    !d.mapShown || d.sharedUserInfo = .reset || d.currentUser.map User.email = some user.email
  | _ => true

def ownSessions (c : ℕ) (s : State) (ℓ : Label) : Bool :=
  sessions c ℓ && oneDocument s.store && match ℓ with
    | .deliver i _ => s.jobs[i]?.all (ownResult (s.locals c))
    | _ => true

/-! ### Loading a document -/

theorem UserSingleton.load_of_not_loadable {f : Fields} (h : loadable f = false)
    (u : UserSingleton) : u.load f = u := by
  rw [UserSingleton.load]
  split
  · next hname hemail => simp [loadable, hname, hemail] at h
  · rfl

theorem UserSingleton.load_load (u : UserSingleton) (f : Fields) :
    (u.load f).load f = u.load f := by
  by_cases hf : loadable f = true
  · obtain ⟨hname, hemail⟩ := Bool.and_eq_true_iff.mp hf
    obtain ⟨name, hname⟩ := Option.isSome_iff_exists.mp hname
    obtain ⟨email, hemail⟩ := Option.isSome_iff_exists.mp hemail
    simp only [UserSingleton.load, hname, hemail, UserSingleton.mk.injEq, true_and]
    refine ⟨?_, ?_, ?_, ?_⟩
    · cases getString f .profilePicURL <;> rfl
    · cases getDouble f .mapRadius <;> rfl
    · cases getInt f .totalPlaylistsCreated <;> rfl
    · cases getInt f .totalPlaylistsFound <;> rfl
  · rw [load_of_not_loadable (by simpa using hf), load_of_not_loadable (by simpa using hf)]

theorem own_load {f : Fields} {email : String} (hf : f .email = some (.string email)) :
    Own (UserSingleton.reset.load f) email f := by
  by_cases hl : loadable f = true
  · obtain ⟨hname, -⟩ := Bool.and_eq_true_iff.mp hl
    obtain ⟨name, hname⟩ := Option.isSome_iff_exists.mp hname
    have hemail : getString f .email = some email := by rw [getString, hf]; rfl
    simp only [UserSingleton.load, hname, hemail]
    refine ⟨Or.inr rfl, Or.inr hname, ?_, ?_, ?_, ?_⟩
    · cases h : getString f .profilePicURL with
      | none => exact Or.inl rfl
      | some x => exact Or.inr rfl
    · cases h : getDouble f .mapRadius with
      | none => exact Or.inl rfl
      | some x => exact Or.inr ⟨x, rfl, rfl⟩
    · cases h : getInt f .totalPlaylistsCreated with
      | none => exact Or.inl rfl
      | some x => exact Or.inr rfl
    · cases h : getInt f .totalPlaylistsFound with
      | none => exact Or.inl rfl
      | some x => exact Or.inr rfl
  · rw [UserSingleton.load_of_not_loadable (by simpa using hl)]
    exact ⟨.inl rfl, .inl rfl, .inl rfl, .inl rfl, .inl rfl, .inl rfl⟩

/-- A result that shows nothing but the document `f` loads no more than `f`. -/
theorem foldl_load {f : Fields} : ∀ {docs : List Doc} {u : UserSingleton},
    (∀ doc ∈ docs, doc.data = f) → u = .reset ∨ u = UserSingleton.reset.load f →
    docs.foldl (fun u doc => u.load doc.data) u = .reset ∨
      docs.foldl (fun u doc => u.load doc.data) u = UserSingleton.reset.load f := by
  intro docs
  induction docs with
  | nil => intro u _ hu; exact hu
  | cons doc docs ih =>
    intro u hdocs hu
    rw [List.foldl_cons, hdocs doc List.mem_cons_self]
    refine ih (fun doc' hdoc' => hdocs doc' (List.mem_cons_of_mem _ hdoc')) (Or.inr ?_)
    rcases hu with rfl | rfl
    · rfl
    · exact UserSingleton.load_load _ f

theorem foldl_load_of_not_loadable : ∀ {docs : List Doc} {u : UserSingleton},
    (∀ doc ∈ docs, loadable doc.data = false) →
    docs.foldl (fun u doc => u.load doc.data) u = u := by
  intro docs
  induction docs with
  | nil => intro u _; rfl
  | cons doc docs ih =>
    intro u hdocs
    rw [List.foldl_cons, UserSingleton.load_of_not_loadable (hdocs doc List.mem_cons_self)]
    exact ih (fun doc' hdoc' => hdocs doc' (List.mem_cons_of_mem _ hdoc'))

/-! ### The invariant -/

def Backend.HasAccount (b : Backend) (email : String) : Prop :=
  ∃ uid password, b.accounts.get? uid = some ⟨email, password⟩

inductive Signing (c : ℕ) (b : Backend) : Job → Prop
  | loading (email : String) (account : b.HasAccount email) :
      Signing c b ⟨c, .getUserInfo email, none⟩
  | loaded (email : String) (docs : List Doc) (account : b.HasAccount email)
      (shown : ∀ doc ∈ docs, b.doc? .userInfo doc.id = some doc.data ∧
        doc.data .email = some (.string email)) :
      Signing c b ⟨c, .getUserInfo email, some (.ok docs)⟩
  | creating (vc : VC) (email password : String) :
      Signing c b ⟨c, .createUser vc email password, none⟩
  | created (vc : VC) (email password : String) (reply : Except String User)
      (account : ∀ user, reply = .ok user → b.HasAccount user.email) :
      Signing c b ⟨c, .createUser vc email password, some reply⟩
  | adding (username email password : String) (reply) :
      Signing c b ⟨c, .addUserInfo username email password, reply⟩
  | signing (email password : String) : Signing c b ⟨c, .signIn email password, none⟩
  | signed (email password : String) (reply : Except String User)
      (account : ∀ user, reply = .ok user → b.HasAccount user.email) :
      Signing c b ⟨c, .signIn email password, some reply⟩

structure Session (b : Backend) (d : Device) : Prop where
  account : ∀ user, d.currentUser = some user → b.HasAccount user.email
  data : d.mapShown = true → d.sharedUserInfo = .reset ∨ ∃ user id f, d.currentUser = some user ∧
    b.doc? .userInfo id = some f ∧ f .email = some (.string user.email) ∧
    d.sharedUserInfo = UserSingleton.reset.load f

/-- Nothing in Auth and in `userInfo` is changed or removed. -/
structure Extends (b b' : Backend) : Prop where
  docs : ∀ id f, b.doc? .userInfo id = some f → b'.doc? .userInfo id = some f
  accounts : ∀ uid a, b.accounts.get? uid = some a → b'.accounts.get? uid = some a

variable {P : Platform} {c : ℕ} {s s' : State} {ℓ : Label} {b b' : Backend} {d : Device} {j : Job}

theorem Extends.refl : Extends b b := ⟨fun _ _ h => h, fun _ _ h => h⟩

theorem Extends.hasAccount (h : Extends b b') {email : String} (ha : b.HasAccount email) :
    b'.HasAccount email := by
  obtain ⟨uid, password, ha⟩ := ha
  exact ⟨uid, password, h.accounts uid _ ha⟩

theorem Session.ownData (h : Session b d) : OwnData b d := by
  intro hshown
  rcases h.data hshown with hreset | ⟨user, id, f, huser, hf, hemail, hu⟩
  · exact Or.inl hreset
  · refine Or.inr ⟨user, id, f, huser, hf, hemail, ?_⟩
    rw [hu]
    exact own_load hemail

theorem Session.frame (h : Session b d) (hext : Extends b b') : Session b' d := by
  refine ⟨fun user huser => hext.hasAccount (h.account user huser), fun hshown => ?_⟩
  rcases h.data hshown with hreset | ⟨user, id, f, huser, hf, hemail, hu⟩
  · exact Or.inl hreset
  · exact Or.inr ⟨user, id, f, huser, hext.docs id f hf, hemail, hu⟩

theorem Signing.frame (h : Signing c b j) (hext : Extends b b') : Signing c b' j := by
  cases h with
  | loading email account => exact .loading email (hext.hasAccount account)
  | loaded email docs account shown =>
    exact .loaded email docs (hext.hasAccount account)
      (fun doc hdoc => ⟨hext.docs _ _ (shown doc hdoc).1, (shown doc hdoc).2⟩)
  | creating vc email password => exact .creating vc email password
  | created vc email password reply account =>
    exact .created vc email password reply (fun user hu => hext.hasAccount (account user hu))
  | adding username email password reply => exact .adding username email password reply
  | signing email password => exact .signing email password
  | signed email password reply account =>
    exact .signed email password reply (fun user hu => hext.hasAccount (account user hu))

theorem Signing.client (h : Signing c b j) : j.client = c := by
  cases h <;> rfl

theorem oneDocument_eq (hone : oneDocument b = true) {email : String} (ha : b.HasAccount email)
    {id id' : ℕ} {f f' : Fields} (hf : b.doc? .userInfo id = some f)
    (he : f .email = some (.string email)) (hf' : b.doc? .userInfo id' = some f')
    (he' : f' .email = some (.string email)) : f' = f := by
  obtain ⟨uid, password, ha⟩ := ha
  have hlen := List.all_eq_true.mp hone ⟨uid, ⟨email, password⟩⟩ (Store.Collection.mem_docs.mpr ha)
  have hmem : (⟨id, f⟩ : Doc) ∈ b.getDocuments (.userInfo email) :=
    Backend.mem_getDocuments.mpr ⟨hf, Query.holds_userInfo.mpr he⟩
  have hmem' : (⟨id', f'⟩ : Doc) ∈ b.getDocuments (.userInfo email) :=
    Backend.mem_getDocuments.mpr ⟨hf', Query.holds_userInfo.mpr he'⟩
  obtain ⟨doc, hdocs⟩ := List.length_eq_one_iff.mp
    (Nat.le_antisymm (of_decide_eq_true hlen) (List.length_pos_of_mem hmem))
  rw [hdocs, List.mem_singleton] at hmem hmem'
  exact congrArg Store.Document.data (hmem'.trans hmem.symm)

/-! ### Effects and handlers -/

/-- A call of these runs only adds to what the services hold, and goes on. -/
theorem Signing.effect (h : Signing c b j) (m : ℤ) (waiting : j.reply = none) :
    Extends b (j.request.operation.exec P m b).1 ∧
    Signing c (j.request.operation.exec P m b).1
      (j.answer (j.request.operation.exec P m b).2) := by
  cases h with
  | loading email account =>
    refine ⟨.refl, .loaded email _ account (fun doc hdoc => ?_)⟩
    obtain ⟨hf, hq⟩ := Backend.mem_getDocuments.mp hdoc
    exact ⟨hf, Query.holds_userInfo.mp hq⟩
  | creating vc email password =>
    by_cases htaken : b.emailTaken none email = true
    · have hexec : (Operation.createUser email password).exec P m b =
          (b, .error Operation.emailAlreadyInUse) := by rw [Operation.exec, if_pos htaken]
      rw [show (Request.createUser vc email password).operation.exec P m b = _ from hexec]
      exact ⟨.refl, .created vc email password _ (fun _ h => by cases h)⟩
    · have hexec : (Operation.createUser email password).exec P m b =
          (b.setAccounts (b.accounts.add ⟨email, password⟩), .ok ⟨b.accounts.next, email⟩) := by
        rw [Operation.exec, if_neg htaken]
      rw [show (Request.createUser vc email password).operation.exec P m b = _ from hexec]
      refine ⟨⟨fun _ _ hf => hf, fun uid a ha => ?_⟩, .created vc email password _ ?_⟩
      · rw [Backend.setAccounts_accounts, Store.Collection.get?_add,
          if_neg (Nat.ne_of_lt (Store.Collection.lt_next ha)), ha]
      · intro user hu
        cases hu
        exact ⟨b.accounts.next, password, Store.Collection.get?_add_next _ _⟩
  | adding username email password reply =>
    refine ⟨⟨fun id f hf => ?_, fun _ _ ha => ha⟩, .adding username email password _⟩
    rw [doc?_addDocument, if_neg (fun hc => Nat.ne_of_lt (Store.Collection.lt_next hf) hc.2), hf]
  | signing email password =>
    cases hsign : b.signInWith email password with
    | none =>
      have hexec : (Operation.signIn email password).exec P m b =
          (b, .error Operation.wrongPassword) := by rw [Operation.exec, hsign]
      rw [show (Request.signIn email password).operation.exec P m b = _ from hexec]
      exact ⟨.refl, .signed email password _ (fun _ h => by cases h)⟩
    | some uid =>
      have hexec : (Operation.signIn email password).exec P m b = (b, .ok ⟨uid, email⟩) := by
        rw [Operation.exec, hsign]
      rw [show (Request.signIn email password).operation.exec P m b = _ from hexec]
      refine ⟨.refl, .signed email password _ (fun user hu => ?_)⟩
      cases hu
      obtain ⟨a, ha, rfl⟩ := Option.map_eq_some_iff.mp hsign
      have hdata := List.find?_some ha
      exact ⟨a.id, password, (Store.Collection.mem_docs.mp (List.mem_of_find?_eq_some ha)).trans
        (congrArg some (of_decide_eq_true hdata))⟩
  | loaded | created | signed => cases waiting

theorem Session.congr (h : Session b d) {d' : Device} (huser : d'.currentUser = d.currentUser)
    (hshown : d'.mapShown = d.mapShown) (hinfo : d'.sharedUserInfo = d.sharedUserInfo) :
    Session b d' := by
  refine ⟨fun user hu => h.account user (huser ▸ hu), fun hs => ?_⟩
  rw [huser, hinfo]
  exact h.data (hshown ▸ hs)

theorem Session.signIn (h : Session b d) {user : User} (ha : b.HasAccount user.email)
    (hown : (!d.mapShown || d.sharedUserInfo = .reset ||
      d.currentUser.map User.email = some user.email) = true) :
    Session b { d with currentUser := some user } := by
  refine ⟨fun user' hu => ?_, fun hshown => ?_⟩
  · obtain rfl := Option.some.inj hu
    exact ha
  · replace hshown : d.mapShown = true := hshown
    simp only [hshown, Bool.not_true, Bool.false_or, Bool.or_eq_true, decide_eq_true_eq] at hown
    rcases hown with hreset | hemail
    · exact Or.inl hreset
    · rcases h.data hshown with hreset | ⟨user', id, f, huser', hf, hf', hu⟩
      · exact Or.inl hreset
      · rw [huser', Option.map_some, Option.some_inj] at hemail
        exact Or.inr ⟨user, id, f, rfl, hf, by rw [hf', hemail], hu⟩

theorem Session.load (h : Session b d) {email : String} {docs : List Doc}
    (hone : oneDocument b = true) (account : b.HasAccount email)
    (shown : ∀ doc ∈ docs, b.doc? .userInfo doc.id = some doc.data ∧
      doc.data .email = some (.string email))
    (hown : (!d.mapShown || d.currentUser.map User.email = some email ||
      docs.all (fun doc => !loadable doc.data)) = true) :
    Session b { d with
      sharedUserInfo := docs.foldl (fun u doc => u.load doc.data) d.sharedUserInfo } := by
  refine ⟨h.account, fun hshown => ?_⟩
  replace hshown : d.mapShown = true := hshown
  simp only [hshown, Bool.not_true, Bool.false_or, Bool.or_eq_true, decide_eq_true_eq,
    List.all_eq_true, Bool.not_eq_true'] at hown
  rcases hown with hemail | hnone
  · obtain ⟨user, huser, rfl⟩ := Option.map_eq_some_iff.mp hemail
    cases docs with
    | nil => exact h.data hshown
    | cons doc docs =>
      -- every document of the result is the one document of the account
      obtain ⟨hdoc, hdocEmail⟩ := shown doc List.mem_cons_self
      have hall : ∀ doc' ∈ doc :: docs, doc'.data = doc.data := fun doc' hdoc' =>
        oneDocument_eq hone account hdoc hdocEmail (shown doc' hdoc').1 (shown doc' hdoc').2
      have hu : d.sharedUserInfo = .reset ∨
          d.sharedUserInfo = UserSingleton.reset.load doc.data := by
        rcases h.data hshown with hreset | ⟨user', id, f, huser', hf, hfEmail, hu⟩
        · exact Or.inl hreset
        · obtain rfl := Option.some.inj (huser.symm.trans huser')
          rw [oneDocument_eq hone account hdoc hdocEmail hf hfEmail] at hu
          exact Or.inr hu
      rcases foldl_load hall hu with hreset | hload
      · exact Or.inl hreset
      · exact Or.inr ⟨user, doc.id, doc.data, huser, hdoc, hdocEmail, hload⟩
  · rw [foldl_load_of_not_loadable hnone]
    exact h.data hshown

/-- **The handlers** keep what is known of the device and leave requests that are known. -/
theorem Signing.deliver (h : Signing c b j) (hd : Session b d) (hone : oneDocument b = true)
    (m : ℤ) {a : Except String j.request.Answer} (answered : j.reply = some a)
    (hown : ownResult d j = true) :
    Session b (resume P j.request m a d).1 ∧
    ∀ r ∈ (resume P j.request m a d).2, Signing c b (.issue c r) := by
  cases h with
  | loaded email docs account shown =>
    cases answered
    exact ⟨hd.load hone account shown hown, List.forall_mem_nil _⟩
  | created vc email password reply account =>
    cases answered
    cases reply with
    | ok user =>
      refine ⟨hd.signIn (account user rfl) hown, fun r hr => ?_⟩
      obtain rfl := List.mem_singleton.mp hr
      exact .adding _ _ _ none
    | error e => exact ⟨hd.congr rfl rfl rfl, List.forall_mem_nil _⟩
  | adding username email password reply =>
    cases a with
    | ok _ => exact ⟨hd.congr rfl rfl rfl, List.forall_mem_nil _⟩
    | error e => exact ⟨hd.congr rfl rfl rfl, List.forall_mem_nil _⟩
  | signed email password reply account =>
    cases answered
    cases reply with
    | ok user => exact ⟨hd.signIn (account user rfl) hown, List.forall_mem_nil _⟩
    | error e => exact ⟨hd.congr rfl rfl rfl, List.forall_mem_nil _⟩
  | loading | creating | signing => cases answered

theorem Session.start {e : Event} (he : sessions c (.event c e) = true) (hd : Session b d)
    (live : d.crashed = false) : Session b (SpotiFriend.start e d).1 ∧
    ∀ r ∈ (SpotiFriend.start e d).2, Signing c b (.issue c r) := by
  cases e with
  | signUpClicked vc =>
    simp only [SpotiFriend.start, SignUpVC.signUpClicked]
    split
    · refine ⟨hd, fun r hr => ?_⟩
      obtain rfl := List.mem_singleton.mp hr
      exact .creating _ _ _
    · exact ⟨hd.congr rfl rfl rfl, List.forall_mem_nil _⟩
  | logInClicked vc =>
    simp only [SpotiFriend.start, LogInVC.logInClicked]
    split
    · refine ⟨hd, fun r hr => ?_⟩
      obtain rfl := List.mem_singleton.mp hr
      exact .signing _ _
    · exact ⟨hd.congr rfl rfl rfl, List.forall_mem_nil _⟩
  | logOutClicked signOut =>
    cases signOut with
    | true => exact ⟨⟨nofun, nofun⟩, List.forall_mem_nil _⟩
    | false => exact ⟨hd.congr rfl rfl rfl, List.forall_mem_nil _⟩
  | viewWillAppear =>
    rw [SpotiFriend.start, viewWillAppear_apply live]
    refine ⟨⟨hd.account, fun _ => Or.inl rfl⟩, fun r hr => ?_⟩
    obtain ⟨user, huser, rfl⟩ := Option.map_eq_some_iff.mp (Option.mem_toList.mp hr)
    exact .loading _ (hd.account user huser)
  | editText vc field text => exact ⟨hd.congr rfl rfl rfl, List.forall_mem_nil _⟩
  | _ => simp [sessions] at he

/-- **One move.** -/
theorem step_session (hd : Session s.store (s.locals c)) (hjobs : ∀ j ∈ s.jobs, Signing c s.store j)
    (guard : ownSessions c s ℓ = true) (move : Step (app P) s ℓ s') :
    Session s'.store (s'.locals c) ∧ ∀ j ∈ s'.jobs, Signing c s'.store j := by
  obtain ⟨hguard, hfresh⟩ := Bool.and_eq_true_iff.mp guard
  obtain ⟨hlabel, hone⟩ := Bool.and_eq_true_iff.mp hguard
  have hstart : ∀ c' e, ℓ = .event c' e → (app P).live (s.locals c') = true → c' = c ∧
      Session s.store (start e (s.locals c)).1 ∧
      ∀ r ∈ (start e (s.locals c)).2, Signing c s.store (.issue c r) := by
    rintro c' e rfl live
    obtain ⟨hc, -⟩ := Bool.and_eq_true_iff.mp hlabel
    obtain rfl : c' = c := by simpa using hc
    exact ⟨rfl, Session.start hlabel hd (by simpa using live)⟩
  have hdeliver : ∀ js₁ j js₂ m a, ℓ = .deliver js₁.length m → s.jobs = js₁ ++ j :: js₂ →
      j.reply = some a → j.client = c ∧
      Session s.store (resume P j.request m a (s.locals c)).1 ∧
      ∀ r ∈ (resume P j.request m a (s.locals c)).2, Signing c s.store (.issue c r) := by
    rintro js₁ j js₂ m a rfl split answered
    have hj := hjobs j (mem_of_split split)
    simp only [getElem?_split split, Option.all_some] at hfresh
    exact ⟨hj.client, hj.deliver hd hone m answered hfresh⟩
  refine ⟨?_, move.jobs hjobs ?_ ?_ ?_ ?_⟩
  · cases move with
    | event c' e live =>
      obtain ⟨rfl, hnew, -⟩ := hstart c' e rfl live
      simpa using hnew
    | @effect js₁ js₂ j m split waiting =>
      exact hd.frame ((hjobs j (mem_of_split split)).effect m waiting).1
    | fail j err split waiting => exact hd
    | @deliver js₁ js₂ j m a split answered live =>
      obtain ⟨hc, hnew, -⟩ := hdeliver js₁ j js₂ m a rfl split answered
      rw [State.proceed_locals, State.proceed_store, hc, Function.update_self]
      exact hnew
  · intro c' e hℓ live
    obtain ⟨rfl, -, hnew⟩ := hstart c' e hℓ live
    exact hnew
  · intro js₁ j js₂ m _ split waiting
    obtain ⟨hext, hself⟩ := (hjobs j (mem_of_split split)).effect (P := P) m waiting
    exact ⟨hself, fun i hi => (hjobs i ((rest_sublist split).subset hi)).frame hext⟩
  · rintro js₁ j js₂ err rfl
    cases hlabel
  · intro js₁ j js₂ m a hℓ split answered live
    obtain ⟨hc, -, hnew⟩ := hdeliver js₁ j js₂ m a hℓ split answered
    rw [hc]
    exact hnew

/-- **Session identity** without foreign results: a device that starts with nobody signed
in and nothing in flight never holds data of another account than the one signed in. -/
theorem ownData_of_run {ls : List Label} (hquiet : s.jobs = [])
    (hnobody : (s.locals c).currentUser = none) (hmap : (s.locals c).mapShown = false)
    (h : Run (app P) (fun s ℓ => ownSessions c s ℓ) s ls s') : OwnData s'.store (s'.locals c) := by
  have hstart : Session s.store (s.locals c) ∧ ∀ j ∈ s.jobs, Signing c s.store j := by
    refine ⟨⟨?_, ?_⟩, ?_⟩
    · rw [hnobody]
      exact nofun
    · rw [hmap]
      exact nofun
    · rw [hquiet]
      exact List.forall_mem_nil _
  exact (h.invariant (I := fun t => Session t.store (t.locals c) ∧ ∀ j ∈ t.jobs, Signing c t.store j)
    (fun _ _ _ ht guard move => step_session ht.1 ht.2 guard move) hstart).1.ownData

/-! ### A foreign result -/

/-- Two accounts, and a device with nobody signed in; the first user's name and password
are in the fields of the first log-in form, the other's in those of the second. -/
def twoAccounts : State where
  store := .of [] []
    [Dict.fields (Request.userDict "ann" "ann@mail.org" "secret") 0,
      Dict.fields (Request.userDict "bob" "bob@mail.org" "hidden") 0]
    [⟨"ann@mail.org", "secret"⟩, ⟨"bob@mail.org", "hidden"⟩]
  locals _ :=
    { Device.launched with
      text := fun
        | 0, .emailTextField => "ann@mail.org"
        | 0, .passwordTextField => "secret"
        | _, .emailTextField => "bob@mail.org"
        | _, .passwordTextField => "hidden"
        | _, _ => "" }
  jobs := []

/-- The first user's session, with the result of `getUserInfo` on its way at the end or,
when `late`, after it; then the other user's up to the appearance of the map. -/
def annThenBob (late : Bool) : List Label :=
  [.event 0 (.logInClicked 0), .effect 0 0, .deliver 0 0, .event 0 .viewWillAppear, .effect 0 0] ++
    (if late then [.event 0 (.logOutClicked true)]
      else [.deliver 0 0, .event 0 .viewWillAppear, .event 0 (.logOutClicked true)]) ++
    [.event 0 (.logInClicked 1), .effect 1 0, .deliver 1 0, .event 0 .viewWillAppear] ++
    (if late then [.deliver 0 0] else [.effect 1 0, .deliver 1 0])

theorem ownData_bob : ∃ s',
    Run (app .sample) (fun s ℓ => ownSessions 0 s ℓ) twoAccounts (annThenBob false) s' ∧
    (s'.locals 0).sharedUserInfo.email = "bob@mail.org" ∧ OwnData s'.store (s'.locals 0) := by
  obtain ⟨s', h, hend⟩ := Run.exists_of_run (P := app .sample) (G := ownSessions 0)
    (s := twoAccounts) (l := annThenBob false)
    (Q := fun s' => (s'.locals 0).sharedUserInfo.email = "bob@mail.org") (by decide +kernel)
  exact ⟨s', h, of_decide_eq_true hend, ownData_of_run rfl rfl rfl h⟩

/-- **A foreign result**: the first user's data arrive after the other user's map has
appeared, and fill the singleton. -/
theorem ownData_foreign : ∃ s',
    Run (app .sample) (fun s ℓ => sessions 0 ℓ && oneDocument s.store) twoAccounts
      (annThenBob true) s' ∧
    (s'.locals 0).mapShown = true ∧
    (s'.locals 0).currentUser = some ⟨1, "bob@mail.org"⟩ ∧
    (s'.locals 0).sharedUserInfo.email = "ann@mail.org" ∧ ¬ OwnData s'.store (s'.locals 0) := by
  obtain ⟨s', h, hend⟩ := Run.exists_of_run (P := app .sample)
    (G := fun s ℓ => sessions 0 ℓ && oneDocument s.store) (s := twoAccounts) (l := annThenBob true)
    (Q := fun s' => (s'.locals 0).mapShown && (s'.locals 0).currentUser = some ⟨1, "bob@mail.org"⟩ &&
      (s'.locals 0).sharedUserInfo.email = "ann@mail.org") (by decide +kernel)
  obtain ⟨hend, hemail⟩ := Bool.and_eq_true_iff.mp hend
  obtain ⟨hshown, huser⟩ := Bool.and_eq_true_iff.mp hend
  replace huser := of_decide_eq_true huser
  replace hemail := of_decide_eq_true hemail
  refine ⟨s', h, hshown, huser, hemail, fun hown => ?_⟩
  rcases hown hshown with hreset | ⟨user, id, f, hu, -, -, hdata⟩
  · rw [hreset] at hemail
    exact absurd hemail (by decide)
  · rw [huser] at hu
    cases hu
    rcases hdata.email with hempty | hbob
    · rw [hemail] at hempty
      exact absurd hempty (by decide)
    · rw [hemail] at hbob
      exact absurd hbob (by decide)

end SpotiFriend
