import SpotiFriend.Sequential.Operations

/-!
# The shared user information and the document

`Agrees u f`: the shared user information `u` is what the document `f` says, where an
absent field stands for the value that a new singleton has.  Loading the document gives
exactly that (`Agrees.load`), and a write-back changes both alike (`WriteBack.agrees`).

The operations that change the profile are write-backs with calls before them or beside
them; `Edits` is what they come to.
-/

namespace SpotiFriend

open Async SpotiFriend.Action Store

/-- The stored value is the given one; an absent field stands for the default. -/
def Stands (stored : Option Value) (v default : Value) : Prop :=
  stored = some v ∨ stored = none ∧ v = default

def UserSingleton.Shows (u : UserSingleton) : Field → Option Value → Prop
  | .email, v => v = some (.string u.email)
  | .username, v => v = some (.string u.username)
  | .profilePicURL, v => Stands v (.string u.profilePicURL) (.string "")
  -- miles in the document, meters on the device
  | .mapRadius, v => (∃ q, v = some (.number (.fin q)) ∧ u.mapRadius = (Double.fin q).mul (.fin 1609)) ∨
    v = none ∧ u.mapRadius = .fin 40225
  | .totalPlaylistsCreated, v => Stands v (.int u.totalPlaylistsCreated) (.int 0)
  | .totalPlaylistsFound, v => Stands v (.int u.totalPlaylistsFound) (.int 0)
  | _, _ => True

def Agrees (u : UserSingleton) (f : Fields) : Prop := ∀ k, u.Shows k (f k)

theorem Value.int_inj {n n' : ℤ} (h : Value.int n = Value.int n') : n = n' :=
  Rat.intCast_inj.mp (Double.fin.inj (Value.number.inj h))

namespace Agrees

variable {u : UserSingleton} {f : Fields}

theorem email (h : Agrees u f) : f .email = some (.string u.email) := h .email

/-- **Loading** a document into a new singleton gives the only one that agrees with it. -/
theorem load (h : Agrees u f) : UserSingleton.reset.load f = u := by
  have husername : getString f .username = some u.username := by
    rw [getString, show f .username = some (.string u.username) from h .username]
    rfl
  have hemail : getString f .email = some u.email := by
    rw [getString, h.email]
    rfl
  have hpicture : (getString f .profilePicURL).getD "" = u.profilePicURL := by
    rcases h .profilePicURL with hp | ⟨hp, hdefault⟩
    · rw [getString, hp]
      rfl
    · rw [getString, hp]
      exact (Value.string.inj hdefault).symm
  have hradius : ((getDouble f .mapRadius).map (fun r => r.mul (.fin 1609))).getD (.fin 40225) =
      u.mapRadius := by
    rcases h .mapRadius with ⟨q, hq, hr⟩ | ⟨hq, hr⟩
    · rw [getDouble, hq, hr]
      rfl
    · rw [getDouble, hq, hr]
      rfl
  have hcounter : ∀ {k n}, Stands (f k) (.int n) (.int 0) → (getInt f k).getD 0 = n := by
    rintro k n (hn | ⟨hn, hdefault⟩)
    · rw [getInt, hn]
      simp
    · rw [getInt, hn, Value.int_inj hdefault]
      rfl
  rw [UserSingleton.load, husername, hemail]
  simp only [UserSingleton.reset]
  rw [hpicture, hradius, hcounter (h .totalPlaylistsCreated), hcounter (h .totalPlaylistsFound)]

end Agrees

namespace WriteBack

def Fits (d : Device) : WriteBack → Prop
  | radius vc => ∃ q, SettingsVC.radiusOf (d.text vc .mapRadiusTextField) = .fin q
  | created n => n = d.sharedUserInfo.totalPlaylistsCreated + 1
  | _ => True

variable {d : Device} {f : Fields} {k : WriteBack} {k' : Field}

/-- The change of the shared user information is about the field that is written. -/
theorem shows_share {u : UserSingleton} {v : Option Value} (hk' : k' ≠ k.field) :
    (k.share d u).Shows k' v ↔ u.Shows k' v := by
  cases k <;> cases k' <;> first | exact Iff.rfl | exact absurd rfl hk'

theorem shows_value (hfits : k.Fits d) (hemail : k.field ≠ .email) :
    (k.share d d.sharedUserInfo).Shows k.field (some (k.value d)) := by
  cases k with
  | email vc => exact absurd rfl hemail
  | password vc => trivial
  | username vc => rfl
  | radius vc =>
    obtain ⟨q, hq⟩ := hfits
    refine Or.inl ⟨q, by rw [← hq]; rfl, ?_⟩
    show (SettingsVC.radiusOf (d.text vc .mapRadiusTextField)).mul (.fin 1609) = _
    rw [hq]
  | picture imgURL => exact Or.inl rfl
  | created n =>
    obtain rfl : n = d.sharedUserInfo.totalPlaylistsCreated + 1 := hfits
    exact Or.inl rfl
  | found => exact Or.inl rfl

/-- **A write-back changes both sides alike.** -/
theorem agrees (h : Agrees d.sharedUserInfo f) (hfits : k.Fits d) (hemail : k.field ≠ .email)
    (m : ℤ) : Agrees (k.share d d.sharedUserInfo) ((k.data d).merge m (some f)) := by
  intro k'
  rw [k.merge_data]
  split
  · next hk' =>
    subst hk'
    exact shows_value hfits hemail
  · next hk' => exact (shows_share hk').mpr (h k')

theorem agrees_email {vc : VC} {u : UserSingleton} (h : Agrees u f) (m : ℤ) :
    Agrees { u with email := d.text vc .desiredTextField }
      (((email vc).data d).merge m (some f)) := by
  intro k'
  rw [merge_data]
  split
  · next hk' =>
    subst hk'
    rfl
  · next hk' =>
    have hother : ∀ v, ({ u with email := d.text vc .desiredTextField } : UserSingleton).Shows k' v ↔
        u.Shows k' v := by
      intro v
      cases k' <;> first | exact Iff.rfl | exact absurd rfl hk'
    exact (hother _).mpr (h k')

end WriteBack

variable {P : Platform} {may : Request → Bool → Prop} {b b' : Backend} {l locals' : ℕ → Device}
  {c : ℕ} {d d' : Device} {vc : VC} {ls : List Label} {s' : State} {user : User} {u : String}
  {k : WriteBack} {r : Request} {j : Job} {js : List Job}

/-! ### A write-back, alone or beside another call -/

/-- What a change of the profile comes to: at most one write, and the same change on the
device. -/
structure Edits (k : WriteBack) (u : String) (d : Device) (b : Backend) (d' : Device)
    (b' : Backend) : Prop where
  accounts : b'.accounts = b.accounts
  currentUser : d'.currentUser = d.currentUser
  mapShown : d'.mapShown = d.mapShown
  outcome : (b'.firestore .userInfo = b.firestore .userInfo ∧ d'.sharedUserInfo = d.sharedUserInfo) ∨
    ∃ id m, b.field .userInfo id .email = some (.string u) ∧
      b'.firestore .userInfo = (b.firestore .userInfo).upsert id ((k.data d).merge m) ∧
      d'.sharedUserInfo = k.share d d.sharedUserInfo

theorem Edits.idle (haccounts : b'.accounts = b.accounts)
    (huserInfo : b'.firestore .userInfo = b.firestore .userInfo) (hview : d'.userView = d.userView) :
    Edits k u d b d' b' :=
  ⟨haccounts, congrArg UserView.currentUser hview, congrArg UserView.mapShown hview,
    Or.inl ⟨huserInfo, congrArg UserView.sharedUserInfo hview⟩⟩

theorem WritingBack.edits (h : WritingBack P may k u d b c (b'.firestore .userInfo)
    d'.sharedUserInfo none) (haccounts : b'.accounts = b.accounts)
    (hcurrent : d'.currentUser = d.currentUser) (hshown : d'.mapShown = d.mapShown) :
    Edits k u d b d' b' := by
  refine ⟨haccounts, hcurrent, hshown, ?_⟩
  generalize b'.firestore .userInfo = F at h
  generalize d'.sharedUserInfo = w at h
  cases h with
  | written id m asked found stored => exact Or.inr ⟨id, m, found, rfl, rfl⟩
  | left missed => exact Or.inl ⟨rfl, rfl⟩

/-- A call after which nothing comes, and which leaves Auth, `userInfo` and what the device
holds of the user alone. -/
structure Ends (P : Platform) (r : Request) : Prop where
  accounts : ∀ m st, ((app P).exec r m st).1.accounts = st.accounts
  userInfo : ∀ m st, ((app P).exec r m st).1.firestore .userInfo = st.firestore .userInfo
  requests : ∀ m reply d, ((app P).resume r m reply d).2 = []
  view : ∀ m reply d, ((app P).resume r m reply d).1.userView = d.userView
  text : ∀ m reply d, ((app P).resume r m reply d).1.text = d.text

theorem ends_addPlaylist {title author email link : String} {p : Coordinate} :
    Ends P (.addPlaylist title author email p link) := by
  refine ⟨fun _ _ => rfl, fun _ _ => rfl, ?_, ?_, ?_⟩ <;> rintro m (e | -) d <;> rfl

theorem ends_deletePicture (name : String) : Ends P (.deletePicture name) := by
  refine ⟨fun m st => ?_, fun m st => ?_, ?_, ?_, ?_⟩
  · simp only [Operation.exec]
    split <;> rfl
  · simp only [Operation.exec]
    split <;> rfl
  all_goals rintro m (e | -) d <;> rfl

inductive Calling (c : ℕ) (r : Request) : Option Job → Prop
  | waiting : Calling c r (some ⟨c, r, none⟩)
  | answered (reply : Except String r.Answer) : Calling c r (some ⟨c, r, some reply⟩)
  | over : Calling c r none

theorem Untouched.trans {st st₁ : Backend} {d₁ : Device} {locals₁ : ℕ → Device}
    (h : Untouched l c d d₁ b st locals₁) (h' : Untouched l c d₁ d' st st₁ locals') :
    Untouched l c d d' b st₁ locals' :=
  ⟨h'.locals, h'.currentUser.trans h.currentUser, h'.mapShown.trans h.mapShown,
    h'.text.trans h.text, h'.accounts.trans h.accounts⟩

theorem Calling.advance (hr : Ends P r) {st st' : Backend} (h : Calling c r (some j))
    (move : Advance (app P) may st (Function.update l c d) j st' locals' js) :
    ∃ y d', js = y.toList ∧ Untouched l c d d' st st' locals' ∧
      d'.sharedUserInfo = d.sharedUserInfo ∧
      st'.firestore .userInfo = st.firestore .userInfo ∧ Calling c r y := by
  cases h with
  | waiting =>
    obtain ⟨reply, hcall, rfl, rfl⟩ := move.of_call
    cases hcall with
    | done m hmay =>
      exact ⟨some _, d, rfl, ⟨rfl, rfl, rfl, rfl, hr.accounts m st⟩, rfl, hr.userInfo m st, .answered _⟩
    | failed e hmay => exact ⟨some _, d, rfl, ⟨rfl, rfl, rfl, rfl, rfl⟩, rfl, rfl, .answered _⟩
  | answered reply =>
    obtain ⟨m, -, rfl, rfl, rfl⟩ := move.of_deliver
    have hview := hr.view m reply d
    refine ⟨none, _, by rw [hr.requests]; rfl, ⟨rfl, congrArg UserView.currentUser hview,
      congrArg UserView.mapShown hview, hr.text m reply d, rfl⟩, congrArg UserView.sharedUserInfo hview,
      rfl, .over⟩

/-- **A write-back beside a call that ends there.** -/
theorem edits_beside (hkeyed : Keyed Prod.fst (documentLogin b)) (hr : Ends P r) {y : Option Job}
    (h : Completes (app P) may ⟨b, Function.update l c d, js⟩ ls s')
    (hjobs : js.Perm ((some ⟨c, k.query u, none⟩ : Option Job).toList ++ y.toList))
    (hy : Calling c r y) :
    ∃ d', s'.locals = Function.update l c d' ∧ Edits k u d b d' s'.store := by
  have hend : ∃ d', Untouched l c d d' b s'.store s'.locals ∧
      WritingBack P may k u d b c (s'.store.firestore .userInfo) d'.sharedUserInfo none ∧
      Calling c r none := by
    refine h.strands (x := some ⟨c, k.query u, none⟩) (y := y) (I := fun st locals x y => ∃ d',
      Untouched l c d d' b st locals ∧
        WritingBack P may k u d b c (st.firestore .userInfo) d'.sharedUserInfo x ∧ Calling c r y)
      ?_ ?_ hjobs ⟨d, ⟨rfl, rfl, rfl, rfl, rfl⟩, .asking, hy⟩
    · rintro st locals j y st' locals' js ⟨d₁, huntouched, hback, hcall⟩ move
      rw [huntouched.locals] at move
      obtain ⟨x, d₂, hjs, hmoved, -, hx⟩ := hback.advance hkeyed huntouched.text move
      exact ⟨x, hjs, d₂, huntouched.trans hmoved, hx, hcall⟩
    · rintro st locals x j st' locals' js ⟨d₁, huntouched, hback, hcall⟩ move
      rw [huntouched.locals] at move
      obtain ⟨y, d₂, hjs, hmoved, hshared, hinfo, hy⟩ := hcall.advance hr move
      exact ⟨y, hjs, d₂, huntouched.trans hmoved, by rw [hshared, hinfo]; exact hback, hy⟩
  obtain ⟨d', huntouched, hback, -⟩ := hend
  exact ⟨d', huntouched.locals, hback.edits huntouched.accounts huntouched.currentUser
    huntouched.mapShown⟩

/-- **A write-back by itself**, as a change of the profile. -/
theorem edits_alone (hkeyed : Keyed Prod.fst (documentLogin b))
    (h : Completes (app P) may (running b l c (d, [k.query u])) ls s') :
    ∃ d', s'.locals = Function.update l c d' ∧ Edits k u d b d' s'.store :=
  edits_beside hkeyed (ends_deletePicture "") h (List.Perm.refl _) .over

/-! ### Username, radius, picture and the counter of created playlists -/

theorem updateUsername_settles (hkeyed : Keyed Prod.fst (documentLogin b))
    (huser : d.currentUser = some user)
    (h : Completes (app P) may (running b l c (EditAccountVC.updateClicked vc .username d)) ls s') :
    ∃ d', s'.locals = Function.update l c d' ∧
      Edits (.username vc) user.email d b d' s'.store := by
  rw [EditAccountVC.updateClicked, EditAccountVC.withUser, huser] at h
  exact edits_alone hkeyed h

theorem updateMapRadius_settles (hkeyed : Keyed Prod.fst (documentLogin b))
    (huser : d.currentUser = some user)
    (h : Completes (app P) may (running b l c (SettingsVC.updateMapRadiusClicked vc d)) ls s') :
    ∃ d', s'.locals = Function.update l c d' ∧
      Edits (.radius vc) user.email d b d' s'.store := by
  rw [SettingsVC.updateMapRadiusClicked, EditAccountVC.withUser, huser] at h
  exact edits_alone hkeyed h

theorem addPlaylist_settles (live : d.crashed = false) (hkeyed : Keyed Prod.fst (documentLogin b))
    (h : Completes (app P) may (running b l c (AddPlaylistVC.addPlaylistClicked vc d)) ls s') :
    ∃ d', s'.locals = Function.update l c d' ∧
      Edits (.created (d.sharedUserInfo.totalPlaylistsCreated + 1)) d.sharedUserInfo.email d b d'
        s'.store := by
  cases haccepts : AddPlaylistVC.accepts d vc with
  | true =>
    rw [AddPlaylistVC.addPlaylistClicked_accepted live haccepts] at h
    exact edits_beside hkeyed ends_addPlaylist (y := some ⟨c, .addPlaylist .., none⟩) h
      (List.Perm.swap _ _ _) .waiting
  | false =>
    obtain ⟨l', hclick⟩ := AddPlaylistVC.addPlaylistClicked_rejected haccepts
    rw [hclick] at h
    obtain rfl := h.done
    exact ⟨_, rfl, .idle rfl rfl rfl⟩

theorem Edits.of_firestore (h : Edits k u d b d' b') {b₀ : Backend} (haccounts : b.accounts = b₀.accounts)
    (hfirestore : b.firestore = b₀.firestore) : Edits k u d b₀ d' b' := by
  refine ⟨h.accounts.trans haccounts, h.currentUser, h.mapShown, ?_⟩
  rw [← hfirestore, show b₀.field = b.field by unfold Backend.field Backend.doc?; rw [hfirestore]]
  exact h.outcome

/-- When the picture is there, the old one is deleted beside the change of the URL. -/
theorem pictureURLReply_settles (live : d.crashed = false)
    (hkeyed : Keyed Prod.fst (documentLogin b)) {imgURL : String} (h : Completes (app P) may
      (running b l c (ProfileVC.pictureURLReply (.ok imgURL) d)) ls s') :
    ∃ d', s'.locals = Function.update l c d' ∧
      Edits (.picture imgURL) d.sharedUserInfo.email d b d' s'.store := by
  rw [ProfileVC.pictureURLReply, andThen, ProfileVC.deleteOldPicture] at h
  by_cases hurl : d.sharedUserInfo.profilePicURL ≠ ""
  · rw [if_pos hurl] at h
    cases hold : ProfileVC.oldUUID d.sharedUserInfo.profilePicURL with
    | none =>
      rw [hold] at h
      obtain rfl := h.done
      exact ⟨_, rfl, .idle rfl rfl rfl⟩
    | some name =>
      rw [hold] at h
      simp only [issue_apply, live] at h
      exact edits_beside hkeyed (ends_deletePicture name)
        (y := some ⟨c, .deletePicture name, none⟩) h (List.Perm.swap _ _ _) .waiting
  · rw [if_neg hurl] at h
    simp only [skip_apply, issue_apply, live] at h
    exact edits_alone hkeyed h

theorem storeProfilePic_settles (live : d.crashed = false)
    (hkeyed : Keyed Prod.fst (documentLogin b)) {uuid : String}
    (h : Completes (app P) may (running b l c (ProfileVC.storeProfilePic uuid d)) ls s') :
    ∃ d' imgURL, s'.locals = Function.update l c d' ∧
      Edits (.picture imgURL) d.sharedUserInfo.email d b d' s'.store := by
  obtain ⟨-, reply, b₁, m, ls₁, hput, h₁⟩ := h.call
  have hsame : b₁.firestore = b.firestore ∧ b₁.accounts = b.accounts := by
    cases hput <;> exact ⟨rfl, rfl⟩
  cases reply with
  | error e =>
    obtain rfl := h₁.done
    exact ⟨_, "", rfl, .idle hsame.2 (congrFun hsame.1 _) rfl⟩
  | ok _ =>
    obtain ⟨-, reply, b₂, m₂, ls₂, hurl, h₂⟩ := h₁.call
    obtain rfl : b₂ = b₁ := by
      cases hurl with
      | failed e hmay => rfl
      | done m' hmay =>
        simp only [Operation.exec]
        split <;> rfl
    cases reply with
    | error e =>
      obtain rfl := h₂.done
      exact ⟨_, "", rfl, .idle hsame.2 (congrFun hsame.1 _) rfl⟩
    | ok imgURL =>
      have hkeyed₂ : Keyed Prod.fst (documentLogin b₂) := by
        rw [documentLogin_congr (congrFun hsame.1 _)]
        exact hkeyed
      obtain ⟨d', hlocals, hedits⟩ := pictureURLReply_settles (d := d) live hkeyed₂ h₂
      exact ⟨d', imgURL, hlocals, hedits.of_firestore hsame.2 hsame.1⟩

/-! ### A tap on the only playlist at a place -/

/-- Where the strand of the tap stands that looks into the collection `coll`: Firestore, the
shared user information and the job in flight. -/
inductive Finding (P : Platform) (may : Request → Bool → Prop) (coll : CollectionName)
    (p : Coordinate) (d : Device) (b : Backend) (c : ℕ) (F : CollectionName → Collection Fields)
    (w : UserSingleton) : Option Job → Prop
  | checking (hcoll : F coll = b.firestore coll) (hinfo : F .userInfo = b.firestore .userInfo)
      (hshared : w = d.sharedUserInfo) :
      Finding P may coll p d b c F w (some ⟨c, .checkPlaylists coll p, none⟩)
  | checked (hinfo : F .userInfo = b.firestore .userInfo) (hshared : w = d.sharedUserInfo) :
      Finding P may coll p d b c F w
        (some ⟨c, .checkPlaylists coll p, some (.ok (b.getDocuments (.atCoordinate coll p)))⟩)
  | unchecked (e : String) (hinfo : F .userInfo = b.firestore .userInfo)
      (hshared : w = d.sharedUserInfo) :
      Finding P may coll p d b c F w (some ⟨c, .checkPlaylists coll p, some (.error e)⟩)
  | marking (id : ℕ) (hasFound : List String) (hinfo : F .userInfo = b.firestore .userInfo)
      (hshared : w = d.sharedUserInfo) : Finding P may coll p d b c F w
        (some ⟨c, .storeHasFound coll id hasFound d.sharedUserInfo.email, none⟩)
  | marked (id : ℕ) (hasFound : List String) (hinfo : F .userInfo = b.firestore .userInfo)
      (hshared : w = d.sharedUserInfo)
      (reply : Except String (Request.storeHasFound coll id hasFound d.sharedUserInfo.email).Answer) :
      Finding P may coll p d b c F w
        (some ⟨c, .storeHasFound coll id hasFound d.sharedUserInfo.email, some reply⟩)
  | counting {x : Option Job} (h : WritingBack P may .found d.sharedUserInfo.email d b c
      (F .userInfo) w x) : Finding P may coll p d b c F w x
  | idle (hinfo : F .userInfo = b.firestore .userInfo) (hshared : w = d.sharedUserInfo) :
      Finding P may coll p d b c F w none

variable {coll : CollectionName} {p : Coordinate} {st st' : Backend}

/-- Of at most one playlist at the place, the handler marks at most one. -/
theorem checkPlaylistsReply_cases {docs : List Doc} (hone : docs.length ≤ 1) (d : Device) :
    (MapVC.checkPlaylistsReply coll (.ok docs) d).2 = [] ∨ ∃ id hasFound,
      (MapVC.checkPlaylistsReply coll (.ok docs) d).2 =
        [.storeHasFound coll id hasFound d.sharedUserInfo.email] := by
  have hsub := MapVC.checkPlaylists_requests coll docs d
  match docs with
  | [] => exact Or.inl (List.eq_nil_of_sublist_nil hsub)
  | [doc] =>
    cases hfound : MapVC.found? coll d.sharedUserInfo.email doc with
    | none =>
      rw [List.filterMap_cons_none hfound] at hsub
      exact Or.inl (List.eq_nil_of_sublist_nil hsub)
    | some r =>
      rw [List.filterMap_cons_some hfound, List.filterMap_nil] at hsub
      obtain ⟨hasFound, -, -, rfl⟩ := MapVC.found?_eq_some.mp hfound
      rcases List.sublist_singleton.mp hsub with hnil | hmark
      · exact Or.inl hnil
      · exact Or.inr ⟨doc.id, _, hmark⟩
  | _ :: _ :: _ => simp at hone

theorem Finding.advance (hkeyed : Keyed Prod.fst (documentLogin b)) (hcoll : coll ≠ .userInfo)
    (hone : (b.getDocuments (.atCoordinate coll p)).length ≤ 1) (htext : d'.text = d.text)
    (h : Finding P may coll p d b c st.firestore d'.sharedUserInfo (some j))
    (move : Advance (app P) may st (Function.update l c d') j st' locals' js) :
    ∃ x d'', js = x.toList ∧ Untouched l c d' d'' st st' locals' ∧
      (∀ coll', coll' ≠ coll → coll' ≠ .userInfo → st'.firestore coll' = st.firestore coll') ∧
      Finding P may coll p d b c st'.firestore d''.sharedUserInfo x := by
  have hsame : Untouched l c d' d' st st (Function.update l c d') := ⟨rfl, rfl, rfl, rfl, rfl⟩
  cases h with
  | checking hsamecoll hinfo hshared =>
    obtain ⟨reply, hcall, rfl, rfl⟩ := move.of_call
    cases hcall with
    | done m hmay =>
      have hdocs : st.getDocuments (.atCoordinate coll p) = b.getDocuments (.atCoordinate coll p) :=
        Backend.getDocuments_congr hsamecoll
      refine ⟨some ⟨c, .checkPlaylists coll p, some (.ok (st.getDocuments (.atCoordinate coll p)))⟩,
        d', rfl, hsame, fun _ _ _ => rfl, ?_⟩
      rw [hdocs]
      exact .checked hinfo hshared
    | failed e hmay => exact ⟨some _, d', rfl, hsame, fun _ _ _ => rfl, .unchecked e hinfo hshared⟩
  | checked hinfo hshared =>
    obtain ⟨m, -, rfl, rfl, rfl⟩ := move.of_deliver
    have hkeeps : ∀ {β : Type} {π : Device → β}, (∀ (d : Device) (o : List String) (a : List Alert)
        (x : Bool), π { d with opened := o, alerts := a, crashed := x } = π d) →
        π (MapVC.checkPlaylistsReply coll (.ok (b.getDocuments (.atCoordinate coll p))) d').1 = π d' :=
      fun hπ => MapVC.checkPlaylistsReply_keeps hπ d'
    have hmoved : Untouched l c d'
        (MapVC.checkPlaylistsReply coll (.ok (b.getDocuments (.atCoordinate coll p))) d').1 st' st' _ :=
      ⟨rfl, hkeeps (π := Device.currentUser) (fun _ _ _ _ => rfl),
        hkeeps (π := Device.mapShown) (fun _ _ _ _ => rfl),
        hkeeps (π := Device.text) (fun _ _ _ _ => rfl), rfl⟩
    have hsharedUserInfo := hkeeps (π := Device.sharedUserInfo) (fun _ _ _ _ => rfl)
    rcases checkPlaylistsReply_cases hone d' with hnil | ⟨id, hasFound, hmark⟩
    · refine ⟨none, _, congrArg (List.map (Job.issue c)) hnil, hmoved, fun _ _ _ => rfl, ?_⟩
      exact .idle hinfo (hsharedUserInfo.trans hshared)
    · refine ⟨some ⟨c, .storeHasFound coll id hasFound d'.sharedUserInfo.email, none⟩, _,
        congrArg (List.map (Job.issue c)) hmark, hmoved, fun _ _ _ => rfl, ?_⟩
      rw [show d'.sharedUserInfo.email = d.sharedUserInfo.email from congrArg _ hshared]
      exact .marking id hasFound hinfo (hsharedUserInfo.trans hshared)
  | unchecked e hinfo hshared =>
    obtain ⟨m, -, rfl, rfl, rfl⟩ := move.of_deliver
    exact ⟨none, _, rfl, ⟨rfl, rfl, rfl, rfl, rfl⟩, fun _ _ _ => rfl, .idle hinfo hshared⟩
  | marking id hasFound hinfo hshared =>
    obtain ⟨reply, hcall, rfl, rfl⟩ := move.of_call
    cases hcall with
    | done m hmay =>
      have hframe : ∀ coll', coll' ≠ coll → ((Request.storeHasFound coll id hasFound
          d.sharedUserInfo.email).operation.exec P m st).1.firestore coll' = st.firestore coll' := by
        intro coll' hne
        rw [Operation.exec, Backend.setCollection_firestore, Function.update_of_ne hne]
      exact ⟨some _, d', rfl, ⟨rfl, rfl, rfl, rfl, rfl⟩, fun coll' hne _ => hframe coll' hne,
        .marked id hasFound ((hframe _ hcoll.symm).trans hinfo) hshared _⟩
    | failed e hmay =>
      exact ⟨some _, d', rfl, hsame, fun _ _ _ => rfl, .marked id hasFound hinfo hshared _⟩
  | marked id hasFound hinfo hshared reply =>
    obtain ⟨m, -, rfl, rfl, rfl⟩ := move.of_deliver
    cases reply with
    | ok _ =>
      refine ⟨some ⟨c, WriteBack.query .found d.sharedUserInfo.email, none⟩, d', rfl, hsame,
        fun _ _ _ => rfl, .counting ?_⟩
      rw [hinfo, hshared]
      exact .asking
    | error e => exact ⟨none, _, rfl, ⟨rfl, rfl, rfl, rfl, rfl⟩, fun _ _ _ => rfl, .idle hinfo hshared⟩
  | counting h =>
    obtain ⟨x, d'', hjs, hmoved, hframe, hx⟩ := h.advance hkeyed htext move
    exact ⟨x, d'', hjs, hmoved, fun coll' _ hne => hframe coll' hne, .counting hx⟩

/-- Where the strand of the tap stands that looks into a collection with no playlist there. -/
inductive Missing (c : ℕ) (coll : CollectionName) (p : Coordinate) (b : Backend)
    (C : Collection Fields) : Option Job → Prop
  | checking (hcoll : C = b.firestore coll) :
      Missing c coll p b C (some ⟨c, .checkPlaylists coll p, none⟩)
  | checked : Missing c coll p b C (some ⟨c, .checkPlaylists coll p, some (.ok [])⟩)
  | unchecked (e : String) : Missing c coll p b C (some ⟨c, .checkPlaylists coll p, some (.error e)⟩)
  | over : Missing c coll p b C none

theorem Missing.advance (hnone : b.getDocuments (.atCoordinate coll p) = [])
    (h : Missing c coll p b (st.firestore coll) (some j))
    (move : Advance (app P) may st (Function.update l c d) j st' locals' js) :
    ∃ y d', js = y.toList ∧ Untouched l c d d' st st' locals' ∧
      d'.sharedUserInfo = d.sharedUserInfo ∧ st'.firestore = st.firestore ∧
      Missing c coll p b (st'.firestore coll) y := by
  cases h with
  | checking hcoll =>
    obtain ⟨reply, hcall, rfl, rfl⟩ := move.of_call
    cases hcall with
    | done m hmay =>
      have hdocs : st.getDocuments (.atCoordinate coll p) = [] :=
        (Backend.getDocuments_congr hcoll).trans hnone
      refine ⟨some ⟨c, .checkPlaylists coll p, some (.ok (st.getDocuments (.atCoordinate coll p)))⟩,
        d, rfl, ⟨rfl, rfl, rfl, rfl, rfl⟩, rfl, rfl, ?_⟩
      rw [hdocs]
      exact .checked
    | failed e hmay => exact ⟨some _, d, rfl, ⟨rfl, rfl, rfl, rfl, rfl⟩, rfl, rfl, .unchecked e⟩
  | checked =>
    obtain ⟨m, -, rfl, rfl, rfl⟩ := move.of_deliver
    exact ⟨none, _, rfl, ⟨rfl, rfl, rfl, rfl, rfl⟩, rfl, rfl, .over⟩
  | unchecked e =>
    obtain ⟨m, -, rfl, rfl, rfl⟩ := move.of_deliver
    exact ⟨none, _, rfl, ⟨rfl, rfl, rfl, rfl, rfl⟩, rfl, rfl, .over⟩

theorem Finding.edits (h : Finding P may coll p d b c b'.firestore d'.sharedUserInfo none)
    (haccounts : b'.accounts = b.accounts) (hcurrent : d'.currentUser = d.currentUser)
    (hshown : d'.mapShown = d.mapShown) : Edits .found d.sharedUserInfo.email d b d' b' := by
  cases h with
  | counting h => exact h.edits haccounts hcurrent hshown
  | idle hinfo hshared => exact ⟨haccounts, hcurrent, hshown, Or.inl ⟨hinfo, hshared⟩⟩

/-- The two strands of a tap where the collection `coll₂` has no playlist. -/
theorem finding_settles (hkeyed : Keyed Prod.fst (documentLogin b)) (coll coll₂ : CollectionName)
    (hcoll : coll ≠ .userInfo) (hcoll₂ : coll₂ ≠ .userInfo) (hne : coll₂ ≠ coll)
    (hone : (b.getDocuments (.atCoordinate coll p)).length ≤ 1)
    (hnone : b.getDocuments (.atCoordinate coll₂ p) = [])
    (h : Completes (app P) may ⟨b, Function.update l c d, js⟩ ls s')
    (hjobs : js.Perm [⟨c, .checkPlaylists coll p, none⟩, ⟨c, .checkPlaylists coll₂ p, none⟩]) :
    ∃ d', s'.locals = Function.update l c d' ∧
      Edits .found d.sharedUserInfo.email d b d' s'.store := by
  have hend : ∃ d', Untouched l c d d' b s'.store s'.locals ∧
      Finding P may coll p d b c s'.store.firestore d'.sharedUserInfo none ∧
      Missing c coll₂ p b (s'.store.firestore coll₂) none := by
    refine h.strands (x := some ⟨c, .checkPlaylists coll p, none⟩)
      (y := some ⟨c, .checkPlaylists coll₂ p, none⟩) (I := fun st locals x y => ∃ d',
        Untouched l c d d' b st locals ∧
          Finding P may coll p d b c st.firestore d'.sharedUserInfo x ∧
          Missing c coll₂ p b (st.firestore coll₂) y)
      ?_ ?_ hjobs ⟨d, ⟨rfl, rfl, rfl, rfl, rfl⟩, .checking rfl rfl rfl, .checking rfl⟩
    · rintro st locals j y st' locals' js ⟨d₁, huntouched, hfinding, hmissing⟩ move
      rw [huntouched.locals] at move
      obtain ⟨x, d₂, hjs, hmoved, hframe, hx⟩ :=
        hfinding.advance hkeyed hcoll hone huntouched.text move
      exact ⟨x, hjs, d₂, huntouched.trans hmoved, hx, by rw [hframe coll₂ hne hcoll₂]; exact hmissing⟩
    · rintro st locals x j st' locals' js ⟨d₁, huntouched, hfinding, hmissing⟩ move
      rw [huntouched.locals] at move
      obtain ⟨y, d₂, hjs, hmoved, hshared, hfirestore, hy⟩ := hmissing.advance hnone move
      exact ⟨y, hjs, d₂, huntouched.trans hmoved, by rw [hshared, hfirestore]; exact hfinding, hy⟩
  obtain ⟨d', huntouched, hfinding, -⟩ := hend
  exact ⟨d', huntouched.locals, hfinding.edits huntouched.accounts huntouched.currentUser
    huntouched.mapShown⟩

/-- **A tap at a place with at most one playlist** counts it at most once. -/
theorem calloutTapped_settles (live : d.crashed = false)
    (hkeyed : Keyed Prod.fst (documentLogin b))
    (hone : (b.getDocuments (.atCoordinate .masterPlaylists p)).length +
      (b.getDocuments (.atCoordinate .userPlaylists p)).length ≤ 1)
    (h : Completes (app P) may (running b l c (MapVC.calloutTapped p d)) ls s') :
    ∃ d', s'.locals = Function.update l c d' ∧
      Edits .found d.sharedUserInfo.email d b d' s'.store := by
  rw [MapVC.calloutTapped_apply live] at h
  by_cases huser : b.getDocuments (.atCoordinate .userPlaylists p) = []
  · exact finding_settles hkeyed .masterPlaylists .userPlaylists nofun nofun nofun
      (by omega) huser h (List.Perm.refl _)
  · have hpos := List.length_pos_iff.mpr huser
    exact finding_settles hkeyed .userPlaylists .masterPlaylists nofun nofun nofun
      (by omega) (List.length_eq_zero_iff.mp (by omega)) h (List.Perm.swap _ _ _)

end SpotiFriend
