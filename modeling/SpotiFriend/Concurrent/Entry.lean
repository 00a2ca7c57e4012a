import SpotiFriend.Concurrent.Writes

/-!
# Who gets in

A device has a user because Auth has answered a call of it, and that call took the email and
the password from the text fields.  The two may have changed since, and others may have signed
in to the account as well: what the history tells is that they were right when they were used.

Main results, for all that the app can do, with any calls failing and in any order:

* `entry_traces`: a move hands on how the users have come in;
* `signedIn_entered`: nobody is signed in whose email and password were not entered on the
  device.
-/

namespace SpotiFriend

open Async SpotiFriend.Action Store

/-- The email and the password were in the text fields at a click to log in or to sign up. -/
def Typed (h : History) (c : ℕ) (email password : String) : Prop :=
  ∃ t vc, ((t, Label.event c (.logInClicked vc)) ∈ h ∨ (t, Label.event c (.signUpClicked vc)) ∈ h) ∧
    (t.locals c).text vc .emailTextField = email ∧
    (t.locals c).text vc .passwordTextField = password

def loginOf : Request → Option Credentials
  | .signIn email password => some ⟨email, password⟩
  | .createUser _ email password => some ⟨email, password⟩
  | _ => none

/-- Auth has taken the email and the password from the device, for an account that has them. -/
def Accepted (P : Platform) (h : History) (c uid : ℕ) (a : Credentials) : Prop :=
  ∃ t i m r, (t, Label.effect i m) ∈ h ∧ t.jobs[i]? = some ⟨c, r, none⟩ ∧ loginOf r = some a ∧
    (r.operation.exec P m t.store).1.accounts.get? uid = some a

/-- The user's email and password were entered on the device. -/
def Entered (P : Platform) (h : History) (c uid : ℕ) : Prop :=
  ∃ a : Credentials, Typed h c a.email a.password ∧ Accepted P h c uid a

/-- The user that a call is answered with, if that is what it is for. -/
def admitted : (r : Request) → Except String r.Answer → Option User
  | .signIn _ _, .ok user => some user
  | .createUser _ _ _, .ok user => some user
  | _, _ => none

/-- Where the email and the password of a call come from, and whose they are. -/
structure Admits (P : Platform) (h : History) (j : Job) : Prop where
  typed : ∀ a, loginOf j.request = some a → Typed h j.client a.email a.password
  accepted : ∀ reply, j.reply = some reply → ∀ user, admitted j.request reply = some user →
    ∃ a, loginOf j.request = some a ∧ Accepted P h j.client user.uid a

variable {P : Platform} {s s' : State} {ls : List Label} {h h' : History} {c uid : ℕ}
  {d : Device} {m : ℤ} {r : Request} {b : Backend} {user : User}

/-! ### The past only grows -/

theorem Typed.mono {email password : String} (hsub : h ⊆ h') (htyped : Typed h c email password) :
    Typed h' c email password := by
  obtain ⟨t, vc, hclick, htext⟩ := htyped
  exact ⟨t, vc, hclick.imp (fun hx => hsub hx) (fun hx => hsub hx), htext⟩

theorem Accepted.mono {a : Credentials} (hsub : h ⊆ h') (ha : Accepted P h c uid a) :
    Accepted P h' c uid a := by
  obtain ⟨t, i, m, r, hmade, hjob⟩ := ha
  exact ⟨t, i, m, r, hsub hmade, hjob⟩

theorem Entered.mono (hsub : h ⊆ h') (hc : Entered P h c uid) : Entered P h' c uid := by
  obtain ⟨a, htyped, haccepted⟩ := hc
  exact ⟨a, htyped.mono hsub, haccepted.mono hsub⟩

theorem Admits.mono {j : Job} (hsub : h ⊆ h') (hj : Admits P h j) : Admits P h' j := by
  refine ⟨fun a ha => (hj.typed a ha).mono hsub, fun reply hreply user huser => ?_⟩
  obtain ⟨a, ha, haccepted⟩ := hj.accepted reply hreply user huser
  exact ⟨a, ha, haccepted.mono hsub⟩

/-! ### Events, calls and replies -/

theorem start_typed {e : Event} {a : Credentials} (live : d.crashed = false)
    (hr : r ∈ (start e d).2) (ha : loginOf r = some a) : ∃ vc,
    (e = .logInClicked vc ∨ e = .signUpClicked vc) ∧ d.text vc .emailTextField = a.email ∧
      d.text vc .passwordTextField = a.password := by
  have hbegins := start_begins e live r hr
  cases e with
  | logInClicked vc =>
    obtain rfl := hbegins
    obtain rfl := Option.some.inj ha
    exact ⟨vc, Or.inl rfl, rfl, rfl⟩
  | signUpClicked vc =>
    obtain rfl := hbegins
    obtain rfl := Option.some.inj ha
    exact ⟨vc, Or.inr rfl, rfl, rfl⟩
  | updateClicked vc selectedEditID =>
    cases selectedEditID <;> cases r <;> simp_all [Begins, loginOf]
  | _ => cases r <;> simp_all [Begins, loginOf]

theorem resume_loginOf {reply : Except String r.Answer} {r' : Request}
    (hr' : r' ∈ (resume P r m reply d).2) : loginOf r' = none := by
  have hleads := resume_leads P r m reply d r' hr'
  cases r' with
  | signIn email password => cases r <;> simp_all [Leads]
  | createUser vc email password => cases r <;> simp_all [Leads]
  | _ => rfl

theorem get?_of_signInWith {email password : String} (hfound : b.signInWith email password = some uid) :
    b.accounts.get? uid = some ⟨email, password⟩ := by
  obtain ⟨a, ha, rfl⟩ := Option.map_eq_some_iff.mp hfound
  have hlogin : a.data = ⟨email, password⟩ := by simpa using List.find?_some ha
  rw [← hlogin]
  exact Collection.mem_docs.mp (List.mem_of_find?_eq_some ha)

/-- **Auth** answers with a user whose account has the email and the password. -/
theorem admitted_exec {user : User}
    (huser : admitted r (r.operation.exec P m b).2 = some user) : ∃ a, loginOf r = some a ∧
    (r.operation.exec P m b).1.accounts.get? user.uid = some a := by
  cases r with
  | signIn email password =>
    refine ⟨⟨email, password⟩, rfl, ?_⟩
    simp only [Operation.exec] at huser ⊢
    cases hfound : b.signInWith email password with
    | none =>
      rw [hfound] at huser
      cases huser
    | some uid =>
      rw [hfound] at huser
      obtain rfl := Option.some.inj huser
      exact get?_of_signInWith hfound
  | createUser vc email password =>
    refine ⟨⟨email, password⟩, rfl, ?_⟩
    simp only [Operation.exec] at huser ⊢
    split at huser
    · cases huser
    · next htaken =>
      obtain rfl := Option.some.inj huser
      rw [if_neg htaken]
      exact (b.accounts.get?_add _ _).trans (if_pos rfl)
  | _ => cases huser

/-- A reply lets in the user that it was answered with, and nobody else. -/
theorem authState_cases {reply : Except String r.Answer} {o : Option User}
    (huser : authState r reply o = some user) : admitted r reply = some user ∨
    ∃ user', o = some user' ∧ user'.uid = user.uid := by
  cases r with
  | signIn email password => cases reply with
    | error err => exact Or.inr ⟨user, huser, rfl⟩
    | ok user' => exact Or.inl huser
  | createUser vc email password => cases reply with
    | error err => exact Or.inr ⟨user, huser, rfl⟩
    | ok user' => exact Or.inl huser
  | updateEmail vc uid email oldEmail => cases reply with
    | error err => exact Or.inr ⟨user, huser, rfl⟩
    | ok _ =>
      obtain ⟨user', rfl, rfl⟩ := Option.map_eq_some_iff.mp huser
      refine Or.inr ⟨user', rfl, ?_⟩
      split
      · next huid => exact huid
      · rfl
  | deleteUser uid => cases reply with
    | error err => exact Or.inr ⟨user, huser, rfl⟩
    | ok _ => exact Or.inr ⟨user, (Option.filter_eq_some_iff.mp huser).1, rfl⟩
  | _ => exact Or.inr ⟨user, huser, rfl⟩

/-! ### Runs -/

/-- **The moves** hand on how the users have come in. -/
theorem entry_traces : Traces (app P)
    (fun h c d => ∀ user, d.currentUser = some user → Entered P h c user.uid) (Admits P) where
  grows hsub hd user huser := (hd user huser).mono hsub
  growsJob hsub hj := hj.mono hsub
  start := by
    intro h s c e hmade live hd
    have hlive : (s.locals c).crashed = false := by simpa using live
    refine ⟨fun user huser => ?_, fun r hr => ⟨fun a ha => ?_, fun reply hreply => by cases hreply⟩⟩
    · rw [app_start, start_user e hlive] at huser
      split at huser
      · cases huser
      · exact hd user huser
    · obtain ⟨vc, rfl | rfl, htext⟩ := start_typed hlive hr ha
      · exact ⟨s, vc, Or.inl hmade, htext⟩
      · exact ⟨s, vc, Or.inr hmade, htext⟩
  exec := by
    intro h s i m c r hmade hjob hj
    refine ⟨hj.typed, fun reply hreply user huser => ?_⟩
    obtain rfl := Option.some.inj hreply
    obtain ⟨a, ha, haccount⟩ := admitted_exec huser
    exact ⟨a, ha, s, i, m, r, hmade, hjob, ha, haccount⟩
  fail := by
    intro h c r err hj
    refine ⟨hj.typed, fun reply hreply user huser => ?_⟩
    obtain rfl := Option.some.inj hreply
    cases r <;> cases huser
  resume := by
    intro h s i m c r reply hmade live hd hj
    refine ⟨fun user huser => ?_, fun r' hr' => ⟨fun a ha => ?_, fun reply hreply => by cases hreply⟩⟩
    · rw [app_resume, resume_user P r m reply (by simpa using live)] at huser
      rcases authState_cases huser with hadmitted | ⟨user', huser', huid⟩
      · obtain ⟨a, ha, haccepted⟩ := hj.accepted reply rfl user hadmitted
        exact ⟨a, hj.typed a ha, haccepted⟩
      · rw [← huid]
        exact hd user' huser'
    · rw [Job.issue_request, resume_loginOf hr'] at ha
      cases ha

/-- **Nobody gets in without the password.**  In every run that starts with nothing on its way
and nobody signed in, whoever is signed in on a device in the end is the user of an account
whose email and password were in the text fields at a click of this device, and were those of
the account when Auth answered the call. -/
theorem signedIn_entered (quiet : s.jobs = []) (nobody : ∀ c, (s.locals c).currentUser = none)
    (hrun : Run (app P) (fun _ _ => True) s ls s') (huser : (s'.locals c).currentUser = some user) :
    Entered P (collect (app P) made s ls) c user.uid := by
  refine (entry_traces.run ⟨fun c user huser => ?_, ?_⟩ hrun).1 c user huser
  · rw [nobody c] at huser
    cases huser
  · rw [quiet]
    exact List.forall_mem_nil _

def allLaunched : State := ⟨oldPlaylist.store, fun _ => .launched, []⟩

def annLogsIn : List Label :=
  [.event 1 (.editText 0 .emailTextField "ann@mail.org"),
    .event 1 (.editText 0 .passwordTextField "secret"), .event 1 (.logInClicked 0), .effect 0 0,
    .deliver 0 0]

theorem annLogsIn_entered : ∃ s', Run (app .sample) (fun _ _ => True) allLaunched annLogsIn s' ∧
    Entered .sample (collect (app .sample) made allLaunched annLogsIn) 1 0 := by
  obtain ⟨s', hrun, hend⟩ := Run.exists_of_run (P := app .sample) (G := fun _ _ => true)
    (s := allLaunched) (l := annLogsIn)
    (Q := fun s' => (s'.locals 1).currentUser = some ⟨0, "ann@mail.org"⟩) (by decide +kernel)
  have hfree := hrun.mono (H := fun _ _ => True) (fun _ _ _ => trivial)
  exact ⟨s', hfree, signedIn_entered rfl (fun _ => rfl) hfree (of_decide_eq_true hend)⟩

end SpotiFriend
