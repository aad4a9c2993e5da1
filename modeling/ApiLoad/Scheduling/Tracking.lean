import ApiLoad.Scheduling.Invariant
import ApiLoad.Scheduling.Rotation

/-!
# The ledger of a running process

What a running process knows about the world (the views of the credentials, the publication and
the clock) decides everything in the ledger that a checkpoint leaves out. The relation `Tracks`
says how, and every step of the process keeps it.
-/
namespace ApiLoad.Scheduling
open Std (ExtTreeMap)
open Foundation State OrderedMap Option List

namespace SchedulingLedger

/-! ## What the world has reported -/

variable {now earlier : Time} {view : CredentialRuntimeView}

theorem suspendedAt_mono (h : earlier ≤ later) (hs : view.suspendedAt later = true) :
    view.suspendedAt earlier = true := by
  simp only [CredentialRuntimeView.suspendedAt, decide_eq_true_eq] at hs ⊢
  rcases hs with h1 | h2 | h3 | h4 | h5
  · exact .inl h1
  · exact .inr (.inl h2)
  · exact .inr (.inr (.inl h3))
  · exact .inr (.inr (.inr (.inl h4)))
  · exact .inr (.inr (.inr (.inr (h.trans_lt h5))))

/-- The latest view of every credential, the latest publication, and the clock. -/
structure World where
  views : ExtTreeMap Nat CredentialRuntimeView := ∅
  snapshot : Option ConfigSnapshot := none
  now : Time

/-- The views after `SyncCredentials`: those of the group are replaced. -/
def World.replace (w : World) (groupID : Nat) (views : List (CredentialRuntimeView × Time)) :
    ExtTreeMap Nat CredentialRuntimeView :=
  views.foldl (fun known v => known.insert v.1.id v.1)
    (w.views.filter fun _ v => groupID ≠ 0 && v.groupID ≠ groupID)

/-- Whether `SyncGroups` takes a publication over. -/
def accepts (d : SchedulingLedger) (snapshot : ConfigSnapshot) : Bool :=
  !(d.groupsKnown && snapshot.revision ≤ d.groupRevision)

/-- The ledgers of a running process together with what the process knows. The clock does not go
back, and a request takes its candidates from credentials that are available to its knowledge. -/
inductive Running : SchedulingLedger → World → Prop
  | new (now : Time) : Running newSchedulingState { now }
  | select {d : SchedulingLedger} {w : World} (h : Running d w) {now : Time} (hnow : w.now ≤ now)
      {snapshot : Option ConfigSnapshot} {candidates : List WeightedCredential} {preferred : Nat}
      (available : ∀ c ∈ candidates, ∀ v, w.views[c.id]? = some v → v.suspendedAt now = false) :
      Running (d.selectCredential snapshot candidates preferred).1 { w with now }
  | selectModel {d : SchedulingLedger} {w : World} (h : Running d w) (groupID : Nat)
      (externalModel : String) (models : List String) :
      Running (d.selectModel groupID externalModel models).1 w
  | syncCredential {d : SchedulingLedger} {w : World} (h : Running d w) {now : Time}
      (hnow : w.now ≤ now) {view : CredentialRuntimeView} (hid : view.id ≠ 0) :
      Running (d.syncCredential view now) { w with views := w.views.insert view.id view, now }
  | syncCredentials {d : SchedulingLedger} {w : World} (h : Running d w) {now : Time}
      (hnow : w.now ≤ now) (groupID : Nat) {views : List (CredentialRuntimeView × Time)}
      (hviews : ∀ v ∈ views, v.1.id ≠ 0 ∧ v.2 ≤ now) :
      Running (d.syncCredentials groupID views) { w with views := w.replace groupID views, now }
  | remove {d : SchedulingLedger} {w : World} (h : Running d w) (id : Nat) :
      Running (d.remove id) { w with views := w.views.erase id }
  | syncGroups {d : SchedulingLedger} {w : World} (h : Running d w) (snapshot : ConfigSnapshot) :
      Running (d.syncGroups (some snapshot))
        { w with snapshot := if d.accepts snapshot then some snapshot else w.snapshot }

/-- The configuration that a ledger has taken over. -/
structure SameConfig (a b : SchedulingLedger) : Prop where
  groupsKnown : a.groupsKnown = b.groupsKnown
  groupRevision : a.groupRevision = b.groupRevision
  groups : a.groups = b.groups
  modelCursors : a.modelCursors = b.modelCursors

theorem SameConfig.refl (d : SchedulingLedger) : SameConfig d d := ⟨rfl, rfl, rfl, rfl⟩

variable {d : SchedulingLedger} {w : World}

theorem select_config (snapshot : Option ConfigSnapshot) (candidates : List WeightedCredential)
    (preferred : Nat) : SameConfig (d.selectCredential snapshot candidates preferred).1 d := by
  have hs := d.selectCredential_selects snapshot candidates preferred
  generalize d.selectCredential snapshot candidates preferred = r at hs ⊢
  obtain ⟨d', result⟩ := r
  obtain ⟨members, hadmitted, -⟩ := d.admitEligible_eq snapshot (d.eligible candidates)
  have admitted : SameConfig (d.admitEligible snapshot (d.eligible candidates)) d := by
    rw [hadmitted]
    exact ⟨rfl, rfl, rfl, rfl⟩
  dsimp only at hs ⊢
  cases hs with
  | idle => exact .refl d
  | stopped => exact admitted
  | charged => exact ⟨admitted.1, admitted.2, admitted.3, admitted.4⟩

/-- An observation of the ledger that reads neither the members nor the streak. -/
structure Frame {α : Type} (f : SchedulingLedger → α) : Prop where
  members : ∀ d members, f { d with members } = f d
  streak : ∀ d lastMember consecutive, f { d with lastMember, consecutive } = f d

section Frame

variable {α : Type} {f : SchedulingLedger → α}

theorem Frame.forget (h : Frame f) (d : SchedulingLedger) (id : Nat) : f (d.forget id) = f d := by
  unfold SchedulingLedger.forget
  split
  · exact h.streak ..
  · rfl

theorem Frame.syncCredential (h : Frame f) (d : SchedulingLedger) (view : CredentialRuntimeView)
    (now : Time) : f (d.syncCredential view now) = f d := by
  unfold SchedulingLedger.syncCredential
  obtain ⟨m, -, -, -, he⟩ | ⟨he, -⟩ := d.memberFor_cases view
  · rw [he]
    exact h.members ..
  · rw [he]
    exact (h.members ..).trans (h.forget d view.id)

theorem Frame.remove (h : Frame f) (d : SchedulingLedger) (id : Nat) : f (d.remove id) = f d :=
  (h.forget ..).trans (h.members ..)

theorem Frame.syncCredentials (h : Frame f) (d : SchedulingLedger) (groupID : Nat)
    (views : List (CredentialRuntimeView × Time)) : f (d.syncCredentials groupID views) = f d := by
  have synced : f (views.foldl (fun d v => d.syncCredential v.1 v.2) d) = f d := by
    induction views generalizing d with
    | nil => rfl
    | cons v views ih => exact (ih _).trans (h.syncCredential d v.1 v.2)
  have removed (listed : List (Nat × SchedulingMember)) (d : SchedulingLedger) :
      f (listed.foldl (removeUnseen groupID (views.map (·.1.id))) d) = f d := by
    induction listed generalizing d with
    | nil => rfl
    | cons e listed ih =>
      refine (ih _).trans ?_
      unfold removeUnseen
      split_ifs
      · rfl
      · rfl
      · exact h.remove d e.1
  exact (removed _ _).trans synced

end Frame

theorem SameConfig.of_frame (same : ∀ {α : Type} {f : SchedulingLedger → α}, Frame f → f d' = f d) :
    SameConfig d' d where
  groupsKnown := same ⟨fun _ _ => rfl, fun _ _ _ => rfl⟩
  groupRevision := same ⟨fun _ _ => rfl, fun _ _ _ => rfl⟩
  groups := same ⟨fun _ _ => rfl, fun _ _ _ => rfl⟩
  modelCursors := same ⟨fun _ _ => rfl, fun _ _ _ => rfl⟩

theorem syncCredential_config (view : CredentialRuntimeView) (now : Time) :
    SameConfig (d.syncCredential view now) d :=
  .of_frame fun h => h.syncCredential d view now

theorem remove_config (id : Nat) : SameConfig (d.remove id) d :=
  .of_frame fun h => h.remove d id

theorem syncCredentials_config (groupID : Nat) (views : List (CredentialRuntimeView × Time)) :
    SameConfig (d.syncCredentials groupID views) d :=
  .of_frame fun h => h.syncCredentials d groupID views

/-! ## The ledger follows the world -/

/-- What the ledger has taken over of a publication. -/
structure Published (d : SchedulingLedger) (snapshot : ConfigSnapshot) : Prop where
  groupsKnown : d.groupsKnown = true
  groupRevision : d.groupRevision = snapshot.revision
  groups : d.groups = snapshot.groupCatalog.map (groupActive snapshot)
  cursors : ∀ key, Compiled snapshot key → CursorFits snapshot key d.modelCursors[key]?

/-- The member of a credential has the identity of its view, and waits while the view keeps it
out. -/
structure Follows (m : SchedulingMember) (v : CredentialRuntimeView) (now : Time) : Prop where
  groupID : m.groupID = v.groupID
  identityGeneration : m.identityGeneration = v.identityGeneration
  waits : v.suspendedAt now = true → m.pending = true

structure Tracks (d : SchedulingLedger) (w : World) : Prop where
  sound : d.Sound
  member : ∀ {id : Nat} {m : SchedulingMember}, d.members[id]? = some m →
    ∃ v, w.views[id]? = some v ∧ v.id = id ∧ Follows m v w.now
  view : ∀ {id : Nat} {v : CredentialRuntimeView}, w.views[id]? = some v →
    (d.members[id]?).isSome
  unpublished : w.snapshot = none → d.groupsKnown = false ∧ d.groupRevision = 0 ∧ d.groups = ∅
  published : ∀ snapshot, w.snapshot = some snapshot → Published d snapshot

theorem Published.congr (h : Published b snapshot) (same : SameConfig a b) :
    Published a snapshot where
  groupsKnown := same.groupsKnown.trans h.groupsKnown
  groupRevision := same.groupRevision.trans h.groupRevision
  groups := same.groups.trans h.groups
  cursors key hk := by rw [same.modelCursors]; exact h.cursors key hk

/-- A step that keeps the configuration only has to account for the members. -/
theorem Tracks.step {d' : SchedulingLedger} {views : ExtTreeMap Nat CredentialRuntimeView}
    (h : Tracks d w) (sound : d'.Sound) (same : SameConfig d' d)
    (member : ∀ {id : Nat} {m : SchedulingMember}, d'.members[id]? = some m → ∃ v, views[id]? = some
      v ∧ v.id = id ∧ Follows m v now)
    (view : ∀ {id : Nat} {v : CredentialRuntimeView}, views[id]? = some v →
      (d'.members[id]?).isSome) : Tracks d' { w with views, now } where
  sound := sound
  member := member
  view := view
  unpublished hn := by
    obtain ⟨h1, h2, h3⟩ := h.unpublished hn
    exact ⟨same.groupsKnown.trans h1, same.groupRevision.trans h2, same.groups.trans h3⟩
  published snapshot hs := (h.published snapshot hs).congr same

theorem tracks_new (now : Time) : Tracks newSchedulingState { now } where
  sound := sound_new
  member h := by simp [newSchedulingState] at h
  view h := by simp at h
  unpublished _ := ⟨rfl, rfl, rfl⟩
  published _ h := by cases h

/-- What a selection leaves of a member: its identity, and its waiting unless it is a candidate. -/
inductive Selected (candidate : Prop) : Option SchedulingMember → Option SchedulingMember → Prop
  | absent : Selected candidate none none
  | member {m m' : SchedulingMember} (group : m'.groupID = m.groupID)
    (identity : m'.identityGeneration = m.identityGeneration)
    (pending : m'.pending = m.pending ∨ candidate) : Selected candidate (some m) (some m')

theorem select_member (snapshot : Option ConfigSnapshot) (candidates : List WeightedCredential)
    (preferred : Nat) (id : Nat) : Selected (id ∈ candidates.map (·.id)) d.members[id]?
      (d.selectCredential snapshot candidates preferred).1.members[id]? := by
  have hs := d.selectCredential_selects snapshot candidates preferred
  generalize d.selectCredential snapshot candidates preferred = r at hs ⊢
  obtain ⟨d', result⟩ := r
  dsimp only at hs ⊢
  obtain ⟨members, hadmitted, hmembers⟩ := d.admitEligible_eq snapshot (d.eligible candidates)
  have admitted : Selected (id ∈ candidates.map (·.id)) d.members[id]?
      (d.admitEligible snapshot (d.eligible candidates)).members[id]? := by
    rw [hadmitted]
    simp only [hmembers]
    cases d.members[id]? with
    | none => exact .absent
    | some m =>
      simp only [Option.map_some, SchedulingLedger.admitted]
      split
      · next hin =>
        obtain ⟨c, hc, hid⟩ := mem_map.mp hin.1
        exact .member rfl rfl (.inr (mem_map.mpr ⟨c, (mem_eligible.mp hc).1, hid⟩))
      · exact .member rfl rfl (.inl rfl)
  cases hs with
  | idle =>
    cases d.members[id]? with
    | none => exact .absent
    | some m => exact .member rfl rfl (.inl rfl)
  | stopped => exact admitted
  | @charged chosen member next mem room found advances =>
    simp only [SchedulingLedger.charge, lookup_insert]
    split
    swap
    · exact admitted
    next hid =>
    subst hid
    rw [found] at admitted
    generalize d.members[chosen.id]? = before at admitted ⊢
    cases admitted with
    | member group identity pending => exact .member group identity pending

theorem Tracks.select (h : Tracks d w) (hnow : w.now ≤ now)
    (available : ∀ c ∈ candidates, ∀ v, w.views[c.id]? = some v → v.suspendedAt now = false) :
    Tracks (d.selectCredential snapshot candidates preferred).1 { w with now } := by
  refine h.step (h.sound.select ..) (select_config ..) (fun {id m'} hm' => ?_)
    (fun {id v} hv => ?_)
  · have kept := hm' ▸ d.select_member snapshot candidates preferred id
    generalize hm : d.members[id]? = before at kept
    obtain _ | ⟨hg, hi, hpending⟩ := kept
    obtain ⟨v, hv, hid, hf⟩ := h.member hm
    refine ⟨v, hv, hid, hg.trans hf.groupID, hi.trans hf.identityGeneration, fun hs => ?_⟩
    rcases hpending with he | hin
    · rw [he]
      exact hf.waits (suspendedAt_mono hnow hs)
    -- A candidate is available, so its view does not keep it out.
    obtain ⟨c, hc, rfl⟩ := mem_map.mp hin
    rw [available c hc v hv] at hs
    cases hs
  · have present := h.view hv
    have kept := d.select_member snapshot candidates preferred id
    generalize d.members[id]? = before at present kept
    generalize (d.selectCredential snapshot candidates preferred).1.members[id]? = after at kept ⊢
    cases kept with
    | absent => cases present
    | member => rfl

theorem syncCredential_lookup (d : SchedulingLedger) (view : CredentialRuntimeView)
    (now : Time) :
    ∃ m : SchedulingMember, m.groupID = view.groupID ∧
      m.identityGeneration = view.identityGeneration ∧
      ∀ id : Nat, (d.syncCredential view now).members[id]? =
        if view.id = id then some (m.observe view now) else d.members[id]? := by
  unfold syncCredential putMember
  obtain ⟨m, -, hg, hi, he⟩ | ⟨he, -⟩ := d.memberFor_cases view
  · rw [he]
    exact ⟨m, hg, hi, fun id => lookup_insert ..⟩
  rw [he]
  refine ⟨d.newMember view, rfl, rfl, fun id => ?_⟩
  simp only [lookup_insert, forget_members]

theorem Follows.later {later : Time} (h : Follows m v earlier) (hle : earlier ≤ later) :
    Follows m v later :=
  ⟨h.groupID, h.identityGeneration, fun hs => h.waits (suspendedAt_mono hle hs)⟩

theorem Tracks.syncCredential (h : Tracks d w) {reading : Time} (hnow : w.now ≤ now)
    (hreading : reading ≤ now) (hid : view.id ≠ 0) :
    Tracks (d.syncCredential view reading)
      { w with views := w.views.insert view.id view, now } := by
  obtain ⟨m₀, hg, hi, hlookup⟩ := d.syncCredential_lookup view reading
  refine h.step (h.sound.syncCredential hid reading) (syncCredential_config ..)
    (fun {id m} hm => ?_) (fun {id v} hv => ?_)
  · rw [hlookup] at hm
    rw [lookup_insert]
    split at hm
    · next he =>
      cases hm
      refine ⟨view, if_pos he, he, hg, hi, fun hs => ?_⟩
      have := suspendedAt_mono hreading hs
      simp [SchedulingMember.observe, this]
    · next he =>
      rw [if_neg he]
      obtain ⟨v, hv, hvid, hf⟩ := h.member hm
      exact ⟨v, hv, hvid, hf.later hnow⟩
  · rw [lookup_insert] at hv
    rw [hlookup]
    split at hv
    · next he => rw [if_pos he]; rfl
    · next he => rw [if_neg he]; exact h.view hv

theorem remove_members (d : SchedulingLedger) (id i : Nat) :
    (d.remove id).members[i]? = if id = i then none else d.members[i]? := by
  rw [SchedulingLedger.remove, forget_members, lookup_erase]

theorem Tracks.remove (h : Tracks d w) (id : Nat) :
    Tracks (d.remove id) { w with views := w.views.erase id } := by
  have hlookup (i : Nat) := d.remove_members id i
  refine h.step (h.sound.remove id) (remove_config id) (fun {i m} hm => ?_) (fun {i v} hv => ?_)
  · rw [hlookup] at hm
    split at hm
    · cases hm
    next he =>
    obtain ⟨v, hv, hvid, hf⟩ := h.member hm
    exact ⟨v, by rw [lookup_erase, if_neg he, hv], hvid, hf⟩
  · rw [lookup_erase] at hv
    split at hv
    · cases hv
    · next he => rw [hlookup, if_neg he]; exact h.view hv

theorem Tracks.selectModel (h : Tracks d w) (groupID : Nat) (externalModel : String)
    (models : List String) : Tracks (d.selectModel groupID externalModel models).1 w := by
  have hs := h.sound.selectModel groupID externalModel models
  have fits (snapshot : ConfigSnapshot) (hp : Published d snapshot) (key : GroupModelKey)
      (hk : Compiled snapshot key) := selectModel_fits (hp.cursors key hk) groupID externalModel
        models
  obtain ⟨cursors, he⟩ : ∃ cursors, (d.selectModel groupID externalModel models).1 =
      { d with modelCursors := cursors } := by
    unfold SchedulingLedger.selectModel
    split
    · exact ⟨d.modelCursors, rfl⟩
    dsimp only
    split
    · exact ⟨d.modelCursors, rfl⟩
    · exact ⟨_, rfl⟩
  rw [he] at hs fits ⊢
  exact {
    sound := hs
    member := h.member
    view := h.view
    unpublished := h.unpublished
    published := fun snapshot hsnap =>
      { h.published snapshot hsnap with cursors := fits snapshot (h.published snapshot hsnap) } }

theorem Tracks.syncGroups (h : Tracks d w) (snapshot : ConfigSnapshot) :
    Tracks (d.syncGroups (some snapshot))
      { w with snapshot := if d.accepts snapshot then some snapshot else w.snapshot } := by
  by_cases haccepts : d.groupsKnown = true ∧ snapshot.revision ≤ d.groupRevision
  · have he : d.syncGroups (some snapshot) = d := by
      unfold SchedulingLedger.syncGroups
      dsimp only
      rw [if_pos haccepts]
    have hrejects : d.accepts snapshot = false := by simp [accepts, haccepts]
    rw [he, hrejects]
    exact h
  · have hs := h.sound.syncGroups (some snapshot)
    have haccept : d.accepts snapshot = true := by
      simp only [accepts, Bool.not_eq_true', Bool.and_eq_false_iff]
      by_cases hk : d.groupsKnown = true
      · exact .inr (decide_eq_false fun hle => haccepts ⟨hk, hle⟩)
      · exact .inl (by simpa using hk)
    rw [haccept]
    refine {
      sound := hs
      member := fun {id m'} hm' => ?_
      view := fun {id v} hv => ?_
      unpublished := fun hn => by cases hn
      published := fun s hsnap => ?_ }
    · have present : (d.members[id]?).isSome := by
        unfold SchedulingLedger.syncGroups at hm'
        dsimp only at hm'
        rw [if_neg haccepts] at hm'
        simp only [syncModelCursors, ExtTreeMap.getElem?_map, map_eq_some_iff] at hm'
        obtain ⟨m, hm, -⟩ := hm'
        rw [hm]
        rfl
      obtain ⟨m, hm⟩ := isSome_iff_exists.mp present
      obtain ⟨m₁, h₁, he⟩ := syncGroups_lookup (some snapshot) hm
      rw [h₁] at hm'
      cases hm'
      obtain ⟨v, hv, hid, hf⟩ := h.member hm
      rcases he with rfl | rfl
      · exact ⟨v, hv, hid, hf⟩
      · exact ⟨v, hv, hid, hf.groupID, hf.identityGeneration, fun _ => rfl⟩
    · obtain ⟨m, hm⟩ := isSome_iff_exists.mp (h.view hv)
      obtain ⟨m₁, h₁, -⟩ := syncGroups_lookup (some snapshot) hm
      rw [h₁]
      rfl
    · cases hsnap
      unfold SchedulingLedger.syncGroups
      dsimp only
      rw [if_neg haccepts]
      exact ⟨rfl, rfl, rfl, fun key hk => syncModelCursors_fits _ hk⟩

/-- The removals of `SyncCredentials` take out the listed members that were not seen. -/
theorem removals_eq (groupID : Nat) (seen : List Nat) (listed : List (Nat × SchedulingMember))
    (id : Nat) : (listed.foldl (removeUnseen groupID seen) d).members[id]? =
      if ∃ e ∈ listed, e.1 = id ∧ ¬ (groupID ≠ 0 ∧ e.2.groupID ≠ groupID) ∧ id ∉ seen then none
      else d.members[id]? := by
  induction listed generalizing d with
  | nil => simp
  | cons e listed ih =>
    have one : (removeUnseen groupID seen d e).members[id]? =
        if e.1 = id ∧ ¬ (groupID ≠ 0 ∧ e.2.groupID ≠ groupID) ∧ id ∉ seen then none
        else d.members[id]? := by
      unfold removeUnseen
      grind [remove_members]
    simp only [foldl_cons, ih, one, exists_mem_cons_iff, ite_or]
    split_ifs <;> rfl

theorem syncCredentials_lookup (groupID : Nat) (views : List (CredentialRuntimeView × Time))
    (id : Nat) : (d.syncCredentials groupID views).members[id]? =
      (views.foldl (fun d v => d.syncCredential v.1 v.2) d).members[id]?.filter fun m =>
        (groupID ≠ 0 ∧ m.groupID ≠ groupID) ∨ id ∈ views.map (·.1.id) := by
  unfold SchedulingLedger.syncCredentials
  generalize views.foldl (fun d v => d.syncCredential v.1 v.2) d = synced
  dsimp only
  rw [removals_eq]
  cases hm : synced.members[id]? with
  | none => simp
  | some m =>
    have listed : (∃ e ∈ synced.members.toList, e.1 = id ∧
        ¬ (groupID ≠ 0 ∧ e.2.groupID ≠ groupID) ∧ id ∉ views.map (·.1.id)) ↔
        ¬ (groupID ≠ 0 ∧ m.groupID ≠ groupID) ∧ id ∉ views.map (·.1.id) := by
      constructor
      · rintro ⟨⟨i, m'⟩, hmem, rfl, h⟩
        have := lookup_of_mem_toList hmem
        rw [hm] at this
        cases this
        exact h
      · exact fun h => ⟨(id, m), mem_toList_of_lookup hm, rfl, h⟩
    simp only [if_congr listed rfl rfl, filter_some, decide_eq_true_eq]
    grind

/-- Inserting views decides the views of their IDs and leaves the others. -/
theorem insertViews_lookup (views : List (CredentialRuntimeView × Time))
    (known known' : ExtTreeMap Nat CredentialRuntimeView) (id : Nat) :
    (id ∉ views.map (·.1.id) →
      (views.foldl (fun known v => known.insert v.1.id v.1) known)[id]? = known[id]?) ∧
    (id ∈ views.map (·.1.id) →
      (views.foldl (fun known v => known.insert v.1.id v.1) known)[id]? =
        (views.foldl (fun known v => known.insert v.1.id v.1) known')[id]?) := by
  induction views generalizing known known' with
  | nil => simp
  | cons v views ih =>
    rw [foldl_cons, foldl_cons]
    have := ih (known.insert v.1.id v.1) (known'.insert v.1.id v.1)
    have other := (ih (known'.insert v.1.id v.1) (known.insert v.1.id v.1)).1
    constructor
    · intro h
      rw [map_cons, mem_cons, not_or] at h
      rw [this.1 h.2, lookup_insert, if_neg (Ne.symm h.1)]
    intro h
    by_cases hin : id ∈ views.map (·.1.id)
    · exact this.2 hin
    have he : v.1.id = id := by
      rw [map_cons, mem_cons] at h
      exact (h.resolve_right hin).symm
    rw [this.1 hin, other hin, lookup_insert, lookup_insert, if_pos he,
      if_pos he]

theorem Tracks.syncCredentials (h : Tracks d w) (hnow : w.now ≤ now) (groupID : Nat)
    {views : List (CredentialRuntimeView × Time)} (hviews : ∀ v ∈ views, v.1.id ≠ 0 ∧ v.2 ≤ now) :
    Tracks (d.syncCredentials groupID views) { w with views := w.replace groupID views, now } := by
  have synced : Tracks (views.foldl (fun d v => d.syncCredential v.1 v.2) d)
      { w with views := views.foldl (fun known v => known.insert v.1.id v.1) w.views, now } := by
    clear groupID
    -- The world's clock is first moved, then the views come in one by one.
    have start : Tracks d { w with now } :=
      h.step h.sound (.refl d) (fun hm => by
        obtain ⟨v, hv, hid, hf⟩ := h.member hm
        exact ⟨v, hv, hid, hf.later hnow⟩) h.view
    clear h
    generalize w.views = known at start
    induction views generalizing d known with
    | nil => exact start
    | cons v views ih =>
      obtain ⟨hid, hle⟩ := hviews v (by simp)
      exact ih (fun v hv => hviews v (by simp [hv])) _ (start.syncCredential le_rfl hle hid)
  have lookup := insertViews_lookup views
    (w.views.filter fun _ v => groupID ≠ 0 && v.groupID ≠ groupID) w.views
  have lookup' := insertViews_lookup views w.views w.views
  refine h.step (h.sound.syncCredentials groupID fun v hv => (hviews v hv).1)
    (syncCredentials_config ..) (fun {id m} hm => ?_) (fun {id v} hv => ?_)
  · rw [syncCredentials_lookup, filter_eq_some_iff, decide_eq_true_eq] at hm
    obtain ⟨hm, hkeep⟩ := hm
    obtain ⟨v, hv, hid, hf⟩ := synced.member hm
    refine ⟨v, ?_, hid, hf⟩
    dsimp only at hv
    by_cases hin : id ∈ views.map (·.1.id)
    · rw [World.replace, (lookup id).2 hin, hv]
    rw [(lookup' id).1 hin] at hv
    rw [World.replace, (lookup id).1 hin, lookup_filter, hv, filter_some,
      ← hf.groupID]
    simpa using hkeep.resolve_right hin
  · rw [syncCredentials_lookup]
    by_cases hin : id ∈ views.map (·.1.id)
    · rw [World.replace, (lookup id).2 hin] at hv
      obtain ⟨m, hm⟩ := isSome_iff_exists.mp (synced.view hv)
      simp [hm, hin]
    rw [World.replace, (lookup id).1 hin, lookup_filter,
      filter_eq_some_iff] at hv
    obtain ⟨hv, hkeep⟩ := hv
    have hv' : (views.foldl (fun known v => known.insert v.1.id v.1) w.views)[id]? = some v := by
      rw [(lookup' id).1 hin, hv]
    obtain ⟨m, hm⟩ := isSome_iff_exists.mp (synced.view hv')
    obtain ⟨v', hv'', -, hf⟩ := synced.member hm
    dsimp only at hv''
    rw [hv'] at hv''
    cases hv''
    rw [hm, filter_some, hf.groupID]
    simp_all

theorem Running.tracks (h : Running d w) : Tracks d w := by
  induction h with
  | new now => exact tracks_new now
  | select _ hnow available ih => exact ih.select hnow available
  | selectModel _ groupID externalModel models ih => exact ih.selectModel ..
  | syncCredential _ hnow hid ih => exact ih.syncCredential hnow le_rfl hid
  | syncCredentials _ hnow groupID hviews ih => exact ih.syncCredentials hnow groupID hviews
  | remove _ id ih => exact ih.remove id
  | syncGroups _ snapshot ih => exact ih.syncGroups snapshot

end SchedulingLedger
end ApiLoad.Scheduling
