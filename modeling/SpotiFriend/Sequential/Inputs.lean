import SpotiFriend.Sequential.WriteBack

/-!
# What a form writes

The handlers of a form read its text fields again, so what they write is what the fields hold
then.  A run of one form is a chain of calls, each with edits around it: `Follows.call`
cuts off the first.

* `WriteBack.of_follows`: the part that all changes of the user's document share;
* `oneValue_iff`: every place has the value of the press if and only if every text that was
  read still stood for it.
-/

namespace SpotiFriend

open Async SpotiFriend.Action

def succeeded (j : Job) : Bool :=
  match j.reply with
  | some (.ok _) => true
  | _ => false

def editing (s : State) : Label → Bool
  | .event _ (.editText _ _ _) => true
  | .effect _ _ => true
  | .deliver i _ => s.jobs[i]?.all succeeded
  | _ => false

/-- What a text is taken for: for itself, or for a radius in miles or in meters. -/
inductive Use
  | text (field : TextField)
  | miles
  | meters

namespace Use

def field : Use → TextField
  | text field => field
  | miles => .mapRadiusTextField
  | meters => .mapRadiusTextField

/-- What the text stands for. -/
def value : Use → String → Value
  | text _, s => .string s
  | miles, s => .number (SettingsVC.radiusOf s)
  | meters, s => .number ((SettingsVC.radiusOf s).mul (.fin 1609))

def of (d : Device) (vc : VC) (use : Use) : Use × String := (use, d.text vc use.field)

end Use

def readsOf : Job → Device → List (Use × String)
  | ⟨_, .createUser vc _ _, some (.ok _)⟩, d =>
    [Use.of d vc (.text .usernameTextField), Use.of d vc (.text .emailTextField),
      Use.of d vc (.text .passwordTextField)]
  | ⟨_, .updateEmail vc _ _ _, some (.ok _)⟩, d => [Use.of d vc (.text .desiredTextField)]
  | ⟨_, .emailUserInfo vc _, some (.ok [_])⟩, d => [Use.of d vc (.text .desiredTextField)]
  | ⟨_, .passwordUserInfo vc _, some (.ok [_])⟩, d => [Use.of d vc (.text .desiredTextField)]
  | ⟨_, .usernameUserInfo vc _, some (.ok [_])⟩, d => [Use.of d vc (.text .desiredTextField)]
  | ⟨_, .storeUsername vc _ _, some (.ok _)⟩, d => [Use.of d vc (.text .desiredTextField)]
  | ⟨_, .radiusUserInfo vc _, some (.ok [_])⟩, d => [Use.of d vc .miles]
  | ⟨_, .storeRadius vc _ _, some (.ok _)⟩, d => [Use.of d vc .meters]
  | _, _ => []

def reads (s : State) : Label → List (Use × String)
  | .deliver i _ => match s.jobs[i]? with
    | some j => readsOf j (s.locals j.client)
    | none => []
  | _ => []

def Device.typed (d : Device) (t : VC → TextField → String) : Device := { d with text := t }

variable {P : Platform} {s s' : State} {ls : List Label} {c : ℕ} {r : Request} {d : Device}
  {st : Backend} {locals : ℕ → Device} {vc : VC} {u : String}

@[simp] theorem Device.typed_text (t : VC → TextField → String) : (d.typed t).text = t := rfl

/-! ### A call with edits around it -/

theorem edited (locals : ℕ → Device) (c c' : ℕ) (vc : VC) (field : TextField) (text : String) :
    ∃ t, Function.update locals c' (start (.editText vc field text) (locals c')).1 c =
      (locals c).typed t := by
  by_cases hc : c = c'
  · rw [hc, Function.update_self]
    exact ⟨_, rfl⟩
  · rw [Function.update_of_ne hc]
    exact ⟨_, rfl⟩

theorem deliver_edited {a : Except String r.Answer} (hs' : s'.jobs = []) :
    ∀ {ls : List Label} {locals : ℕ → Device},
    Run (app P) (fun s ℓ => editing s ℓ = true) ⟨st, locals, [⟨c, r, some a⟩]⟩ ls s' →
    ∃ t m locals' ls', (∃ x, a = .ok x) ∧ (locals c).crashed = false ∧
      Run (app P) (fun s ℓ => editing s ℓ = true)
        (running st locals' c (resume P r m a ((locals c).typed t))) ls' s' ∧
      collect (app P) reads ⟨st, locals, [⟨c, r, some a⟩]⟩ ls =
        readsOf ⟨c, r, some a⟩ ((locals c).typed t) ++ collect (app P) reads
          (running st locals' c (resume P r m a ((locals c).typed t))) ls' := by
  intro ls
  induction ls with
  | nil =>
    intro locals hrun
    cases hrun
    cases hs'
  | cons ℓ ls ih =>
    intro locals hrun
    cases hrun with
    | cons guard move rest =>
      rw [collect_cons move]
      cases step_iff (app P) |>.mp move with
      | event c' e live =>
        cases e with
        | editText vc field text =>
          obtain ⟨t₀, ht₀⟩ := edited locals c c' vc field text
          obtain ⟨t, m, locals', ls', ha, hlive, hrest, hreads⟩ := ih rest
          rw [ht₀] at hlive hrest hreads
          exact ⟨t, m, locals', ls', ha, hlive, hrest, hreads⟩
        | _ => cases guard
      | effect j m split waiting =>
        rename_i js₁ js₂
        cases js₁ with
        | nil => cases split; cases waiting
        | cons j₁ js₁ => simp at split
      | fail j err split waiting => cases guard
      | deliver j m split answered live =>
        rename_i js₁ js₂ a'
        cases js₁ with
        | cons j₁ js₁ => simp at split
        | nil =>
          cases split
          cases answered
          cases a with
          | error err => cases guard
          | ok x =>
            exact ⟨(locals c).text, m, locals, ls, ⟨x, rfl⟩, by simpa using live, rest, rfl⟩

theorem effect_edited (hs' : s'.jobs = []) : ∀ {ls : List Label} {locals : ℕ → Device},
    Run (app P) (fun s ℓ => editing s ℓ = true) ⟨st, locals, [⟨c, r, none⟩]⟩ ls s' →
    ∃ m t locals' ls', locals' c = (locals c).typed t ∧
      Run (app P) (fun s ℓ => editing s ℓ = true) ⟨(r.operation.exec P m st).1, locals',
        [⟨c, r, some (r.operation.exec P m st).2⟩]⟩ ls' s' ∧
      collect (app P) reads ⟨st, locals, [⟨c, r, none⟩]⟩ ls = collect (app P) reads
        ⟨(r.operation.exec P m st).1, locals', [⟨c, r, some (r.operation.exec P m st).2⟩]⟩ ls' := by
  intro ls
  induction ls with
  | nil =>
    intro locals hrun
    cases hrun
    cases hs'
  | cons ℓ ls ih =>
    intro locals hrun
    cases hrun with
    | cons guard move rest =>
      rw [collect_cons move]
      cases step_iff (app P) |>.mp move with
      | event c' e live =>
        cases e with
        | editText vc field text =>
          obtain ⟨t₀, ht₀⟩ := edited locals c c' vc field text
          obtain ⟨m, t, locals', ls', hlocals, hrest, hreads⟩ := ih rest
          rw [ht₀] at hlocals
          exact ⟨m, t, locals', ls', hlocals, hrest, hreads⟩
        | _ => cases guard
      | effect j m split waiting =>
        rename_i js₁ js₂
        cases js₁ with
        | cons j₁ js₁ => simp at split
        | nil =>
          cases split
          exact ⟨m, (locals c).text, locals, ls, rfl, rest, rfl⟩
      | fail j err split waiting => cases guard
      | deliver j m split answered live =>
        rename_i js₁ js₂ a'
        cases js₁ with
        | cons j₁ js₁ => simp at split
        | nil =>
          cases split
          cases answered

/-- The client `c` goes on with `p` to the end `s'`, with edits on the way, and the texts `l`
are read. -/
def Follows (P : Platform) (c : ℕ) (st : Backend) (p : Device × List Request) (s' : State)
    (l : List (Use × String)) : Prop :=
  s'.jobs = [] ∧ ∃ locals ls, Run (app P) (fun s ℓ => editing s ℓ = true) (running st locals c p) ls s' ∧
    collect (app P) reads (running st locals c p) ls = l

/-- **The first call**, with edits before and after it takes effect. -/
theorem Follows.call {l : List (Use × String)} (h : Follows P c st (d, [r]) s' l) :
    ∃ t m m' l', (∃ x, (r.operation.exec P m st).2 = .ok x) ∧
      Follows P c (r.operation.exec P m st).1
        (resume P r m' (r.operation.exec P m st).2 (d.typed t)) s' l' ∧
      d.crashed = false ∧ l = readsOf ⟨c, r, some (r.operation.exec P m st).2⟩ (d.typed t) ++ l' := by
  obtain ⟨hs', locals, ls, hrun, rfl⟩ := h
  obtain ⟨m, t₁, locals₁, ls₁, hlocals, hrun₁, hreads₁⟩ := effect_edited hs' hrun
  obtain ⟨t₂, m', locals₂, ls₂, ha, hlive, hrun₂, hreads₂⟩ := deliver_edited hs' hrun₁
  rw [hlocals, Function.update_self] at hlive hrun₂ hreads₂
  exact ⟨t₂, m, m', _, ha, ⟨hs', locals₂, ls₂, hrun₂, rfl⟩, hlive, hreads₁.trans hreads₂⟩

theorem done_edited : ∀ {ls : List Label} {locals : ℕ → Device},
    Run (app P) (fun s ℓ => editing s ℓ = true) ⟨st, locals, []⟩ ls s' →
    s'.store = st ∧ (∃ t, s'.locals c = (locals c).typed t) ∧
      collect (app P) reads ⟨st, locals, []⟩ ls = [] := by
  intro ls
  induction ls with
  | nil =>
    intro locals hrun
    cases hrun
    exact ⟨rfl, ⟨_, rfl⟩, rfl⟩
  | cons ℓ ls ih =>
    intro locals hrun
    cases hrun with
    | cons guard move rest =>
      rw [collect_cons move]
      cases step_iff (app P) |>.mp move with
      | event c' e live =>
        cases e with
        | editText vc field text =>
          obtain ⟨t₀, ht₀⟩ := edited locals c c' vc field text
          obtain ⟨hstore, ⟨t, ht⟩, hreads⟩ := ih rest
          rw [ht₀] at ht
          exact ⟨hstore, ⟨t, ht⟩, hreads⟩
        | _ => cases guard
      | effect j m split waiting => simp at split
      | fail j err split waiting => cases guard
      | deliver j m split answered live => simp at split

theorem Follows.done {l : List (Use × String)} (h : Follows P c st (d, []) s' l) :
    s'.store = st ∧ (∃ t, s'.locals c = d.typed t) ∧ l = [] := by
  obtain ⟨-, locals, ls, hrun, rfl⟩ := h
  obtain ⟨hstore, ⟨t, ht⟩, hreads⟩ := done_edited (c := c) hrun
  rw [Function.update_self] at ht
  exact ⟨hstore, ⟨t, ht⟩, hreads⟩

/-! ### Changes of the user's document -/

namespace WriteBack

def input : WriteBack → Option (VC × Use)
  | email vc => some (vc, .text .desiredTextField)
  | password vc => some (vc, .text .desiredTextField)
  | username vc => some (vc, .text .desiredTextField)
  | radius vc => some (vc, .miles)
  | _ => none

def again : WriteBack → List Use
  | username _ => [.text .desiredTextField]
  | radius _ => [.meters]
  | _ => []

/-- The document that is found and the shared user information hold the value of the device
`d₀`. -/
def Holds (k : WriteBack) (u : String) (d₀ : Device) (b b' : Backend) (u' : UserSingleton) : Prop :=
  ∀ doc, b.getDocuments (.userInfo u) = [doc] →
    b'.field .userInfo doc.id k.field = some (k.value d₀) ∧ k.share d₀ u' = u'

variable {k : WriteBack} {use : Use} {d d₀ : Device} {m : ℤ} {docs : List Doc}

theorem value_eq (hk : k.input = some (vc, use)) (d : Device) :
    k.value d = use.value (d.text vc use.field) := by
  cases k <;> cases hk <;> rfl

theorem share_share (hk : k.input = some (vc, use)) (u' : UserSingleton) :
    k.share d₀ (k.share d u') = k.share d u' ↔
      ∀ use ∈ k.again, use.value (d.text vc use.field) = use.value (d₀.text vc use.field) := by
  cases k with
  | email _ | password _ =>
    cases hk
    exact ⟨fun _ _ h => absurd h List.not_mem_nil, fun _ => rfl⟩
  | username _ =>
    cases hk
    simp [share, again, Use.value, Use.field, eq_comm]
  | radius _ =>
    cases hk
    simp [share, again, Use.value, Use.field, eq_comm]
  | picture _ | created _ | found => cases hk

theorem share_email (d : Device) (u' : UserSingleton) : (k.share d u').email = u'.email := by
  cases k <;> rfl

/-- The handler of a query that does not find exactly one document does nothing. -/
theorem resume_missed (hk : k.input = some (vc, use)) (hdocs : docs.length ≠ 1) (m m' : ℤ)
    {b : Backend} (hb : b.getDocuments (.userInfo u) = docs) :
    resume P (k.query u) m ((k.query u).operation.exec P m' b).2 d = (d, []) ∧
      readsOf ⟨c, k.query u, some ((k.query u).operation.exec P m' b).2⟩ d = [] := by
  match docs with
  | [] => cases k <;> cases hk <;> simp [query, Operation.exec, hb] <;> exact ⟨rfl, rfl⟩
  | [doc] => exact absurd rfl hdocs
  | doc :: doc' :: docs =>
    cases k <;> cases hk <;> simp [query, Operation.exec, hb] <;> exact ⟨rfl, rfl⟩

/-- The texts that the handler of the query reads when it finds one document. -/
theorem readsOf_query (hk : k.input = some (vc, use)) {b : Backend} {doc : Doc}
    (hb : b.getDocuments (.userInfo u) = [doc]) (m : ℤ) :
    readsOf ⟨c, k.query u, some ((k.query u).operation.exec P m b).2⟩ d =
      [Use.of d vc use] := by
  cases k <;> cases hk <;> simp [query, Operation.exec, hb] <;> rfl

theorem readsOf_store (hk : k.input = some (vc, use)) (id : ℕ) (d' : Device) (m : ℤ) (b : Backend) :
    readsOf ⟨c, k.store id d', some ((k.store id d').operation.exec P m b).2⟩ d =
      k.again.map (Use.of d vc) := by
  cases k <;> cases hk <;> rfl

/-- **A change of the user's document**: it holds the value of the device `d₀` everywhere if
and only if each text that was read still stands for it. -/
theorem of_follows (d₀ : Device) (hk : k.input = some (vc, use)) {l : List (Use × String)}
    (h : Follows P c st (d, [k.query u]) s' l) :
    s'.store.accounts = st.accounts ∧
      (s'.locals c).sharedUserInfo.email = d.sharedUserInfo.email ∧
      (k.Holds u d₀ st s'.store (s'.locals c).sharedUserInfo ↔
        ∀ p ∈ l, p.1.value p.2 = p.1.value (d₀.text vc p.1.field)) := by
  obtain ⟨t₁, m, m₁, l₁, -, h₁, -, rfl⟩ := h.call
  rw [show ((k.query u).operation.exec P m st).1 = st from exec_query (P := P) k m] at h₁
  by_cases hdocs : (st.getDocuments (.userInfo u)).length = 1
  · obtain ⟨doc, hdoc⟩ := List.length_eq_one_iff.mp hdocs
    have hresume := resume_query (P := P) (d := d.typed t₁) k rfl hdocs.le m₁ m
    rw [show resume P (k.query u) m₁ _ _ = _ from hresume, hdoc, List.map_singleton] at h₁
    obtain ⟨t₂, m₂, m₃, l₂, -, h₂, -, rfl⟩ := h₁.call
    rw [show resume P (k.store doc.id (d.typed t₁)) m₃ _ _ = _ from resume_store k m₃ m₂ _] at h₂
    obtain ⟨hstore, ⟨t, ht⟩, rfl⟩ := h₂.done
    rw [show _ = ((Operation.setData .userInfo doc.id (k.data (d.typed t₁))).exec P m₂ st).1 from
      exec_store (P := P) k m₂] at hstore
    have hwritten : s'.store.field .userInfo doc.id k.field = some (k.value (d.typed t₁)) := by
      rw [hstore, field_setData, if_pos ⟨rfl, rfl⟩, data, Dict.fields_cons, if_pos rfl]
      rfl
    have hshared : (s'.locals c).sharedUserInfo =
        k.share ((d.typed t₁).typed t₂) d.sharedUserInfo := by
      rw [ht]
      rfl
    refine ⟨by rw [hstore]; rfl, by rw [hshared, share_email], ?_⟩
    rw [readsOf_query hk hdoc, readsOf_store hk, List.append_nil]
    have htexts : (∀ p ∈ [Use.of (d.typed t₁) vc use] ++ k.again.map (Use.of ((d.typed t₁).typed t₂) vc),
        p.1.value p.2 = p.1.value (d₀.text vc p.1.field)) ↔
        use.value (t₁ vc use.field) = use.value (d₀.text vc use.field) ∧
          ∀ use ∈ k.again, use.value (t₂ vc use.field) = use.value (d₀.text vc use.field) := by
      simp [Use.of]
    have hholds : k.Holds u d₀ st s'.store (s'.locals c).sharedUserInfo ↔
        k.value (d.typed t₁) = k.value d₀ ∧ k.share d₀ (k.share ((d.typed t₁).typed t₂)
          d.sharedUserInfo) = k.share ((d.typed t₁).typed t₂) d.sharedUserInfo := by
      rw [Holds, hshared, hdoc]
      constructor
      · intro h
        have hboth := h doc rfl
        rw [hwritten] at hboth
        exact ⟨Option.some.inj hboth.1, hboth.2⟩
      · rintro ⟨hvalue, hsame⟩ doc' hdoc'
        cases hdoc'
        exact ⟨hwritten.trans (congrArg some hvalue), hsame⟩
    rw [hholds, value_eq hk, value_eq hk, share_share hk]
    exact htexts.symm
  · obtain ⟨hresume, hnone⟩ := resume_missed (P := P) (c := c) (d := d.typed t₁) hk hdocs m₁ m rfl
    rw [hresume] at h₁
    obtain ⟨hstore, ⟨t, ht⟩, rfl⟩ := h₁.done
    rw [hnone, ht, hstore]
    refine ⟨rfl, rfl, fun _ p hp => absurd hp List.not_mem_nil, fun _ doc hdoc => ?_⟩
    rw [hdoc] at hdocs
    exact absurd rfl hdocs

end WriteBack

/-! ### The five forms -/

/-- The operations that take a value from a text field. -/
inductive Form
  | signUp
  | email
  | password
  | username
  | radius

def Form.event (vc : VC) : Form → Event
  | .signUp => .signUpClicked vc
  | .email => .updateClicked vc .email
  | .password => .updateClicked vc .password
  | .username => .updateClicked vc .username
  | .radius => .updateMapRadiusClicked vc

/-- **One input, one value**: every place that the form wrote to, from the device `d` and the
services `b` on, holds what the text fields of `d` have. -/
def OneValue (vc : VC) (d : Device) (b : Backend) (d' : Device) (b' : Backend) : Form → Prop
  | .signUp => d.text vc .usernameTextField ≠ "" ∧ d.text vc .emailTextField ≠ "" ∧
      d.text vc .passwordTextField ≠ "" →
    b'.accounts.get? b.accounts.next =
        some ⟨d.text vc .emailTextField, d.text vc .passwordTextField⟩ ∧
      b'.field .userInfo (b.firestore .userInfo).next .username =
        some (.string (d.text vc .usernameTextField)) ∧
      b'.field .userInfo (b.firestore .userInfo).next .email =
        some (.string (d.text vc .emailTextField)) ∧
      b'.field .userInfo (b.firestore .userInfo).next .password =
        some (.string (d.text vc .passwordTextField))
  | .email => ∀ user, d.currentUser = some user → d.text vc .desiredTextField ≠ "" ∧
      EditAccountVC.isValidEmail (d.text vc .desiredTextField) = true →
    (b'.accounts.get? user.uid).map Credentials.email = some (d.text vc .desiredTextField) ∧
      d'.sharedUserInfo.email = d.text vc .desiredTextField ∧
      (WriteBack.email vc).Holds user.email d b b' d'.sharedUserInfo
  | .password => ∀ user, d.currentUser = some user → d.text vc .desiredTextField ≠ "" →
    (b'.accounts.get? user.uid).map Credentials.password = some (d.text vc .desiredTextField) ∧
      (WriteBack.password vc).Holds user.email d b b' d'.sharedUserInfo
  | .username => ∀ user, d.currentUser = some user →
    (WriteBack.username vc).Holds user.email d b b' d'.sharedUserInfo
  | .radius => ∀ user, d.currentUser = some user →
    (WriteBack.radius vc).Holds user.email d b b' d'.sharedUserInfo

/-! ### Calls of Auth that succeed -/

theorem exec_createUser {email password : String} {m : ℤ} {user : User}
    (h : ((Operation.createUser email password).exec P m st).2 = .ok user) :
    (Operation.createUser email password).exec P m st =
      (st.setAccounts (st.accounts.add ⟨email, password⟩), .ok ⟨st.accounts.next, email⟩) := by
  rw [Operation.exec] at h ⊢
  split
  · next htaken =>
    rw [if_pos htaken] at h
    cases h
  · rfl

theorem exec_updateEmail {uid : ℕ} {email : String} {m : ℤ} {x : Unit}
    (h : ((Operation.updateEmail uid email).exec P m st).2 = .ok x) : ∃ a : Credentials,
    (Operation.updateEmail uid email).exec P m st =
      (st.setAccounts (st.accounts.upsert uid (fun _ => ⟨email, a.password⟩)), .ok ()) := by
  rw [Operation.exec] at h ⊢
  split
  · next a ha =>
    rw [ha] at h
    dsimp only at h
    split
    · next htaken =>
      rw [if_pos htaken] at h
      cases h
    · exact ⟨a, rfl⟩
  · next ha =>
    rw [ha] at h
    cases h

theorem exec_updatePassword {uid : ℕ} {password : String} {m : ℤ} {x : Unit}
    (h : ((Operation.updatePassword uid password).exec P m st).2 = .ok x) : ∃ a : Credentials,
    (Operation.updatePassword uid password).exec P m st =
      (st.setAccounts (st.accounts.upsert uid (fun _ => ⟨a.email, password⟩)), .ok ()) := by
  rw [Operation.exec] at h ⊢
  split
  · next a ha => exact ⟨a, rfl⟩
  · next ha =>
    rw [ha] at h
    cases h

/-! ### From the press to the end -/

theorem withUser_some {f : User → Action} {user : User} (h : d.currentUser = some user) :
    EditAccountVC.withUser f d = f user d := by
  rw [EditAccountVC.withUser, h]

theorem withUser_none {f : User → Action} (h : d.currentUser = none) :
    EditAccountVC.withUser f d = crash d := by
  rw [EditAccountVC.withUser, h]

theorem signUp_follows {l : List (Use × String)} (h : Follows P c st
      (d, [.createUser vc (d.text vc .emailTextField) (d.text vc .passwordTextField)]) s' l) :
    (s'.store.accounts.get? st.accounts.next =
        some ⟨d.text vc .emailTextField, d.text vc .passwordTextField⟩ ∧
      s'.store.field .userInfo (st.firestore .userInfo).next .username =
        some (.string (d.text vc .usernameTextField)) ∧
      s'.store.field .userInfo (st.firestore .userInfo).next .email =
        some (.string (d.text vc .emailTextField)) ∧
      s'.store.field .userInfo (st.firestore .userInfo).next .password =
        some (.string (d.text vc .passwordTextField))) ↔
    ∀ p ∈ l, p.1.value p.2 = p.1.value (d.text vc p.1.field) := by
  obtain ⟨t₁, m, m₁, l₁, ⟨user, hok⟩, h₁, -, rfl⟩ := h.call
  rw [show _ = _ from exec_createUser hok] at h₁ ⊢
  have hresume : ∀ user, resume P (.createUser vc (d.text vc .emailTextField)
      (d.text vc .passwordTextField)) m₁ (.ok user) (d.typed t₁) =
      ({ d.typed t₁ with currentUser := some user }, [.addUserInfo (t₁ vc .usernameTextField)
        (t₁ vc .emailTextField) (t₁ vc .passwordTextField)]) := fun _ => rfl
  rw [hresume] at h₁
  obtain ⟨t₂, m₂, m₃, l₂, -, h₂, -, rfl⟩ := h₁.call
  obtain ⟨hstore, -, rfl⟩ := Follows.done (show Follows P c _ (_, []) s' _ from h₂)
  have hfield : ∀ k, s'.store.field .userInfo (st.firestore .userInfo).next k =
      Dict.fields (Request.userDict (t₁ vc .usernameTextField) (t₁ vc .emailTextField)
        (t₁ vc .passwordTextField)) m₂ k := by
    intro k
    rw [hstore]
    refine field_addDocument.trans (if_pos ⟨rfl, rfl⟩)
  have haccount : s'.store.accounts.get? st.accounts.next =
      some ⟨d.text vc .emailTextField, d.text vc .passwordTextField⟩ := by
    rw [hstore]
    exact Store.Collection.get?_add_next ..
  simp only [haccount, hfield]
  simp [Request.userDict, readsOf, Use.of, Use.value, Use.field, Entry.resolve]

theorem email_follows {l : List (Use × String)} {user : User}
    (h : Follows P c st (d, [.updateEmail vc user.uid (d.text vc .desiredTextField) user.email]) s' l) :
    ((s'.store.accounts.get? user.uid).map Credentials.email = some (d.text vc .desiredTextField) ∧
      (s'.locals c).sharedUserInfo.email = d.text vc .desiredTextField ∧
      (WriteBack.email vc).Holds user.email d st s'.store (s'.locals c).sharedUserInfo) ↔
    ∀ p ∈ l, p.1.value p.2 = p.1.value (d.text vc p.1.field) := by
  obtain ⟨t₁, m, m₁, l₁, ⟨x, hok⟩, h₁, hlive, rfl⟩ := h.call
  obtain ⟨a, hexec⟩ := exec_updateEmail hok
  rw [show _ = _ from hexec] at h₁ ⊢
  have hresume : resume P (.updateEmail vc user.uid (d.text vc .desiredTextField) user.email) m₁
      (.ok ()) (d.typed t₁) = ({ d.typed t₁ with
        currentUser := authState (.updateEmail vc user.uid (d.text vc .desiredTextField) user.email)
          (.ok ()) d.currentUser
        sharedUserInfo := { d.sharedUserInfo with email := t₁ vc .desiredTextField } },
        [(WriteBack.email vc).query user.email]) := by
    rw [resume, handler, EditAccountVC.updateEmailReply, orAlert_ok, andThen_issue _ (by exact hlive)]
    rfl
  rw [hresume] at h₁
  obtain ⟨haccounts, hshared, hholds⟩ := WriteBack.of_follows d rfl h₁
  have haccount : (s'.store.accounts.get? user.uid).map Credentials.email =
      some (d.text vc .desiredTextField) := by
    rw [haccounts]
    simp only [Backend.setAccounts_accounts, Store.Collection.get?_upsert_self, Option.map_some]
  rw [show (WriteBack.email vc).Holds user.email d st s'.store _ ↔ _ from hholds, hshared]
  simp [haccount, readsOf, Use.of, Use.value, Use.field]

theorem password_follows {l : List (Use × String)} {user : User}
    (huser : d.currentUser = some user)
    (h : Follows P c st (d, [.updatePassword vc user.uid (d.text vc .desiredTextField)]) s' l) :
    ((s'.store.accounts.get? user.uid).map Credentials.password =
        some (d.text vc .desiredTextField) ∧
      (WriteBack.password vc).Holds user.email d st s'.store (s'.locals c).sharedUserInfo) ↔
    ∀ p ∈ l, p.1.value p.2 = p.1.value (d.text vc p.1.field) := by
  obtain ⟨t₁, m, m₁, l₁, ⟨x, hok⟩, h₁, hlive, rfl⟩ := h.call
  obtain ⟨a, hexec⟩ := exec_updatePassword hok
  rw [show _ = _ from hexec] at h₁
  have hresume : resume P (.updatePassword vc user.uid (d.text vc .desiredTextField)) m₁ (.ok ())
      (d.typed t₁) = (d.typed t₁, [(WriteBack.password vc).query user.email]) := by
    rw [resume, handler, EditAccountVC.updatePasswordReply, orAlert_ok]
    exact withUser_some (d := d.typed t₁) huser
  rw [hresume] at h₁
  obtain ⟨haccounts, -, hholds⟩ := WriteBack.of_follows d rfl h₁
  have haccount : (s'.store.accounts.get? user.uid).map Credentials.password =
      some (d.text vc .desiredTextField) := by
    rw [haccounts]
    simp only [Backend.setAccounts_accounts, Store.Collection.get?_upsert_self, Option.map_some]
  rw [show (WriteBack.password vc).Holds user.email d st s'.store _ ↔ _ from hholds]
  simp [haccount]

/-- **One input, one value**, if and only if every text that a handler of the form reads
stands for the same value as the text at the press. -/
theorem oneValue_iff (form : Form) (hs' : s'.jobs = [])
    (hrun : Run (app P) (fun s ℓ => editing s ℓ = true)
      (running s.store s.locals c (start (form.event vc) (s.locals c))) ls s') :
    OneValue vc (s.locals c) s.store (s'.locals c) s'.store form ↔
      ∀ p ∈ collect (app P) reads
          (running s.store s.locals c (start (form.event vc) (s.locals c))) ls,
        p.1.value p.2 = p.1.value ((s.locals c).text vc p.1.field) := by
  have hfollows : Follows P c s.store (start (form.event vc) (s.locals c)) s' _ :=
    ⟨hs', s.locals, ls, hrun, rfl⟩
  generalize collect (app P) reads _ ls = l at hfollows ⊢
  -- a form that is not accepted makes no call
  have hidle : ∀ {d : Device}, Follows P c s.store (d, []) s' l →
      ∀ p ∈ l, p.1.value p.2 = p.1.value ((s.locals c).text vc p.1.field) := by
    intro d h p hp
    rw [h.done.2.2] at hp
    exact absurd hp List.not_mem_nil
  cases form with
  | signUp =>
    by_cases hfilled : (s.locals c).text vc .usernameTextField ≠ "" ∧
        (s.locals c).text vc .emailTextField ≠ "" ∧ (s.locals c).text vc .passwordTextField ≠ ""
    · rw [show start (Form.signUp.event vc) (s.locals c) = _ from if_pos hfilled] at hfollows
      rw [OneValue, forall_prop_of_true hfilled]
      exact signUp_follows hfollows
    · rw [show start (Form.signUp.event vc) (s.locals c) = _ from if_neg hfilled] at hfollows
      exact iff_of_true (fun h => absurd h hfilled) (hidle hfollows)
  | email =>
    rw [OneValue]
    cases huser : (s.locals c).currentUser with
    | none =>
      rw [show start (Form.email.event vc) = EditAccountVC.withUser _ from rfl,
        withUser_none huser] at hfollows
      exact iff_of_true (fun _ h => nomatch h) (hidle hfollows)
    | some user =>
      rw [show start (Form.email.event vc) = EditAccountVC.withUser _ from rfl,
        withUser_some huser] at hfollows
      dsimp only at hfollows
      by_cases hvalid : (s.locals c).text vc .desiredTextField ≠ "" ∧
          EditAccountVC.isValidEmail ((s.locals c).text vc .desiredTextField) = true
      · rw [if_pos hvalid] at hfollows
        rw [← email_follows hfollows]
        exact ⟨fun h => h user rfl hvalid, fun h user' hu _ => by cases hu; exact h⟩
      · rw [if_neg hvalid] at hfollows
        exact iff_of_true (fun user' _ h => absurd h hvalid) (hidle hfollows)
  | password =>
    rw [OneValue]
    by_cases hfilled : (s.locals c).text vc .desiredTextField ≠ ""
    · rw [show start (Form.password.event vc) (s.locals c) = _ from if_pos hfilled] at hfollows
      cases huser : (s.locals c).currentUser with
      | none =>
        rw [huser] at hfollows
        exact iff_of_true (fun _ h => nomatch h) (hidle hfollows)
      | some user =>
        rw [huser] at hfollows
        rw [← password_follows huser hfollows]
        exact ⟨fun h => h user rfl hfilled, fun h user' hu _ => by cases hu; exact h⟩
    · rw [show start (Form.password.event vc) (s.locals c) = _ from if_neg hfilled] at hfollows
      exact iff_of_true (fun user' _ h => absurd h hfilled) (hidle hfollows)
  | username =>
    rw [OneValue]
    cases huser : (s.locals c).currentUser with
    | none =>
      rw [show start (Form.username.event vc) (s.locals c) = _ from withUser_none huser] at hfollows
      exact iff_of_true (fun _ h => nomatch h) (hidle hfollows)
    | some user =>
      rw [show start (Form.username.event vc) (s.locals c) = _ from withUser_some huser] at hfollows
      rw [← (WriteBack.of_follows (k := .username vc) _ rfl hfollows).2.2]
      exact ⟨fun h => h user rfl, fun h user' hu => by cases hu; exact h⟩
  | radius =>
    rw [OneValue]
    cases huser : (s.locals c).currentUser with
    | none =>
      rw [show start (Form.radius.event vc) (s.locals c) = _ from withUser_none huser] at hfollows
      exact iff_of_true (fun _ h => nomatch h) (hidle hfollows)
    | some user =>
      rw [show start (Form.radius.event vc) (s.locals c) = _ from withUser_some huser] at hfollows
      rw [← (WriteBack.of_follows (k := .radius vc) _ rfl hfollows).2.2]
      exact ⟨fun h => h user rfl, fun h user' hu => by cases hu; exact h⟩

def typing : State where
  store := .of [] [] [Dict.fields (Request.userDict "cleo" "cleo@mail.org" "secret") 0]
    [⟨"cleo@mail.org", "secret"⟩]
  locals _ := { Device.launched with
    currentUser := some ⟨0, "cleo@mail.org"⟩
    text := fun _ _ => "cleo@post.org" }
  jobs := []

def threeCalls : List Label :=
  [.effect 0 0, .deliver 0 0, .effect 0 0, .deliver 0 0, .effect 0 0, .deliver 0 0]

/-- The email is typed once more when all is done. -/
theorem oneValue_typed : ∃ s' : State, Run (app .sample) (fun s ℓ => editing s ℓ = true)
      (running typing.store typing.locals 0 (start (Form.email.event 0) (typing.locals 0)))
      (threeCalls ++ [.event 0 (.editText 0 .desiredTextField "dora@post.org")]) s' ∧
    s'.jobs = [] ∧ OneValue 0 (typing.locals 0) typing.store (s'.locals 0) s'.store .email := by
  obtain ⟨s', hrun, hs'⟩ := Run.exists_of_run (P := app .sample) (G := fun s ℓ => editing s ℓ)
    (s := running typing.store typing.locals 0 (start (Form.email.event 0) (typing.locals 0)))
    (l := threeCalls ++ [.event 0 (.editText 0 .desiredTextField "dora@post.org")])
    (Q := fun s' => s'.jobs.isEmpty) (by decide +kernel)
  have hs' := List.isEmpty_iff.mp hs'
  exact ⟨s', hrun, hs', (oneValue_iff .email hs' hrun).mpr (by decide +kernel)⟩

/-- **The email is typed once more before Auth has answered**: the account has the one email,
the document and the shared user information have the other. -/
theorem oneValue_retyped : ∃ ls s', Run (app .sample) (fun s ℓ => editing s ℓ = true)
      (running typing.store typing.locals 0 (start (Form.email.event 0) (typing.locals 0))) ls s' ∧
    s'.jobs = [] ∧ ¬ OneValue 0 (typing.locals 0) typing.store (s'.locals 0) s'.store .email := by
  obtain ⟨s', hrun, hs'⟩ := Run.exists_of_run (P := app .sample) (G := fun s ℓ => editing s ℓ)
    (s := running typing.store typing.locals 0 (start (Form.email.event 0) (typing.locals 0)))
    (l := .event 0 (.editText 0 .desiredTextField "dora@post.org") :: threeCalls)
    (Q := fun s' => s'.jobs.isEmpty && (s'.locals 0).sharedUserInfo.email = "dora@post.org")
    (by decide +kernel)
  simp only [Bool.and_eq_true, List.isEmpty_iff, decide_eq_true_eq] at hs'
  refine ⟨_, s', hrun, hs'.1, fun h => ?_⟩
  have hemail := (h ⟨0, "cleo@mail.org"⟩ rfl (by decide +kernel)).2.1
  rw [hs'.2] at hemail
  exact absurd hemail (by decide)

end SpotiFriend
