import SpotiFriend.Spec.Moves

/-!
# What crashes the app

The code unwraps by force the signed-in user and the links and pictures that documents hold,
and takes the name of the old picture out of its URL by an index.  `fatalEvent` and
`fatalReply` say when that fails.

* `start_crashed`, `resume_crashed`: an event or a reply crashes the device exactly then.
-/

namespace SpotiFriend

open SpotiFriend.Action Text

/-- The event needs a user, and nobody is signed in. -/
def fatalEvent (d : Device) : Event → Bool
  | .viewWillAppear => d.currentUser.isNone
  | .updateClicked _ .email => d.currentUser.isNone
  | .updateClicked _ .username => d.currentUser.isNone
  | .updateMapRadiusClicked _ => d.currentUser.isNone
  | .deleteAccountClicked => d.currentUser.isNone
  | _ => false

variable {α : Type} {a b : Action} {x y : Device → Bool} {P : Platform}

/-- The action crashes the device exactly where `x` says. -/
def CrashesOn (x : Device → Bool) (a : Action) : Prop :=
  ∀ d, (a d).1.crashed = (d.crashed || x d)

namespace CrashesOn

theorem of_keeps (h : Keeps Device.crashed a) : CrashesOn (fun _ => false) a :=
  fun d => (h d).trans (Bool.or_false _).symm

theorem crash : CrashesOn (fun _ => true) crash := fun _ => (Bool.or_true _).symm

theorem congr (h : CrashesOn x a) (hxy : ∀ d, x d = y d) : CrashesOn y a :=
  fun d => hxy d ▸ h d

/-- The second part is not reached when the first one crashes, and need not be asked then. -/
theorem andThen (ha : CrashesOn x a) (hb : CrashesOn y b) (hy : ∀ d, y (a d).1 = y d) :
    CrashesOn (fun d => x d || y d) (andThen a b) := by
  intro d
  rw [Action.andThen]
  cases hcrashed : (a d).1.crashed with
  | true =>
    rw [if_pos rfl, hcrashed, ← Bool.or_assoc, ← ha d, hcrashed, Bool.true_or]
  | false =>
    rw [if_neg Bool.false_ne_true, hb, hy, ha d, Bool.or_assoc]

theorem forEach {f : α → Action} {z : α → Device → Bool} (h : ∀ v, CrashesOn (z v) (f v))
    (hz : ∀ v w d, z w (f v d).1 = z w d) (l : List α) :
    CrashesOn (fun d => l.any (fun v => z v d)) (forEach f l) := by
  induction l with
  | nil => exact of_keeps Keeps.skip
  | cons v l ih =>
    refine (andThen (h v) ih (fun d => ?_)).congr (fun d => rfl)
    exact congrArg l.any (funext (fun w => hz v w d))

end CrashesOn

/-! ### Events -/

/-- **An event** crashes the device exactly when it needs a user and there is none. -/
theorem start_crashed (e : Event) {d : Device} (live : d.crashed = false) :
    (start e d).1.crashed = fatalEvent d e := by
  obtain ⟨l, hl⟩ := start_device e live
  rw [hl]
  cases e with
  | didUpdateLocations map locations => cases locations <;> exact live
  | logOutClicked signOut => cases signOut <;> exact live
  | updateClicked vc selectedEditID =>
    cases selectedEditID with
    | email | username => rfl
    | password | unset => exact live
  | viewWillAppear | updateMapRadiusClicked | deleteAccountClicked => rfl
  | _ => exact live

/-! ### Replies -/

theorem openLink_crashed (link : Value) :
    CrashesOn (fun d => d.spotifyInstalled && !canOpen link) (MapVC.openLink link) := by
  intro d
  unfold MapVC.openLink
  dsimp only
  cases d.spotifyInstalled with
  | false => exact (Bool.or_false _).symm
  | true =>
    rw [if_pos rfl, Bool.true_and]
    cases link with
    | string text =>
      cases h : urlOf text with
      | none =>
        simp only [canOpen, h]
        exact CrashesOn.crash d
      | some r =>
        simp only [canOpen, h]
        exact (Bool.or_false _).symm
    | _ => exact CrashesOn.crash d

theorem checkPlaylist_crashed (coll : CollectionName) (doc : Doc) :
    CrashesOn (fun d => d.spotifyInstalled && !canOpen (MapVC.linkOf doc.data))
      (MapVC.checkPlaylist coll doc) := by
  refine (CrashesOn.andThen (.of_keeps (fun d => by rw [MapVC.markFound_device]))
    (openLink_crashed (MapVC.linkOf doc.data)) (fun d => ?_)).congr (fun d => Bool.false_or _)
  rw [MapVC.markFound_device]

theorem showPicture_crashed (P : Platform) (pin : ℕ) (url : String) :
    CrashesOn (fun _ => !canShow P url) (MapVC.showPicture P pin url) := by
  intro d
  rw [MapVC.showPicture, canShow]
  cases urlOf url with
  | none => exact CrashesOn.crash d
  | some r =>
    cases P.contents url with
    | unavailable => exact (Bool.or_false _).symm
    | noImage => exact CrashesOn.crash d
    | image => exact (Bool.or_false _).symm

/-- **A reply** crashes the device exactly when what the handler is given is fatal. -/
theorem resume_crashed (P : Platform) (r : Request) (m : ℤ) (a : Except String r.Answer) {d : Device}
    (live : d.crashed = false) : (resume P r m a d).1.crashed = fatalReply P d r a := by
  by_cases hr : loops r = true
  · have hcrashes : CrashesOn (fun d => fatalReply P d r a) (handler P m r a) := by
      cases a with
      | error err => cases r <;> exact .of_keeps (fun _ => rfl)
      | ok docs =>
        cases r with
        | addStaticAnnotations map =>
          refine .of_keeps (.forEach (fun doc _ => ?_))
          split
          · exact fun _ => rfl
          · exact .skip
        | addUserAnnotations map =>
          exact .of_keeps (.forEach (fun doc _ =>
            addUserAnnotation_keeps map m doc (fun _ _ _ => rfl)))
        | checkPlaylists coll p =>
          have hspotify : ∀ doc, Keeps (fun d => d.spotifyInstalled) (MapVC.checkPlaylist coll doc) :=
            fun doc => MapVC.checkPlaylist_keeps (fun _ _ _ _ => rfl)
          refine (CrashesOn.forEach (checkPlaylist_crashed coll) (fun doc doc' d => ?_) docs).congr
            (fun d => ?_)
          · exact congrArg (· && _) (hspotify doc d)
          · rw [fatalReply]
            cases d.spotifyInstalled with
            | true => simp only [Bool.true_and]
            | false => simp
        | viewForUserInfo pin email =>
          refine CrashesOn.forEach (z := fun doc _ => (getString doc.data .profilePicURL).any
            (fun url => !canShow P url)) ?_ (fun _ _ _ => rfl) docs
          intro doc
          cases getString doc.data .profilePicURL with
          | none => exact .of_keeps .skip
          | some url => exact showPicture_crashed P pin url
        | _ => cases hr
    refine (hcrashes _).trans ?_
    rw [live, Bool.false_or]
    cases r <;> cases a <;> rfl
  · rw [resume_device r m a live (Bool.eq_false_iff.mpr hr)]
    rfl

end SpotiFriend
