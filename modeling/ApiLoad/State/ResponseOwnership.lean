import ApiLoad.State.ResponseBindings

/-!
# When a recorded binding is usable

An entry that has expired is in the way of a new one exactly if an entry in front of it has not
expired: then `expire` does not reach it, and `Record` compares the new owner with the old one.
-/
namespace ApiLoad.State
open Foundation ResponseBindings List
open Registry.CredentialRegistry (CredentialRef)

variable {Selection : Type} {codec : SelectionCodec Selection}

namespace ResponseBindings
variable {b b' : ResponseBindings Selection} {now : Int} {k : Nat × String}
  {e binding : ResponseBinding Selection}

/-! ## The invariant -/

/-- Keys are distinct, `idBytes` is the size of the entries, and the settings are positive. -/
structure Consistent (codec : SelectionCodec Selection) (b : ResponseBindings Selection) :
    Prop where
  distinct : (b.order.map ResponseBinding.key).Nodup
  counted : b.idBytes = (b.order.map (bindingBytes codec)).sum
  positive : 0 < b.capacity ∧ 0 < b.ttl

theorem Consistent.entry_eq (h : b.Consistent codec) :
    b.entry k = some e ↔ e ∈ b.order ∧ e.key = k := KeyedList.find_eq_some h.distinct

theorem entry_eq_none : b.entry k = none ↔ ∀ e ∈ b.order, e.key ≠ k := by
  simp [entry, find?_eq_none]

theorem Consistent.remove (h : b.Consistent codec) (he : e ∈ b.order) :
    (b.remove codec e).Consistent codec where
  distinct := h.distinct.sublist (eraseP_sublist.map _)
  positive := h.positive
  counted := by
    obtain ⟨a, before, after, -, ha, horder, herase⟩ :=
      exists_of_eraseP (p := fun x => decide (x.key = e.key)) he (by simp)
    have hmem : a ∈ b.order := by simp [horder]
    obtain rfl : a = e := inj_on_of_nodup_map h.distinct hmem he (by simpa using ha)
    have counted := h.counted
    simp only [horder, map_append, map_cons, sum_append, sum_cons] at counted
    simp only [remove, herase, map_append, sum_append]
    omega

/-- What the loops at the front of the list do. -/
structure Shrinks (codec : SelectionCodec Selection) (b b' : ResponseBindings Selection) :
    Prop where
  order : b'.order <:+ b.order
  consistent : b.Consistent codec → b'.Consistent codec

theorem Shrinks.refl (b : ResponseBindings Selection) : Shrinks codec b b :=
  ⟨suffix_rfl, id⟩

section

variable {rest : List (ResponseBinding Selection)} (horder : b.order = e :: rest)
include horder

theorem remove_head :
    b.remove codec e = { b with order := rest, idBytes := b.idBytes - bindingBytes codec e } := by
  simp [remove, horder]

/-- Removing the first entry before going on. -/
theorem Shrinks.head (h : Shrinks codec (b.remove codec e) b') : Shrinks codec b b' := by
  refine ⟨?_, fun hb => h.consistent (hb.remove (by simp [horder]))⟩
  have suffix := h.order
  rw [remove_head horder] at suffix
  exact horder ▸ suffix.trans (suffix_cons e rest)

end

theorem expireFrom_shrinks (l : List (ResponseBinding Selection)) (horder : b.order = l) :
    Shrinks codec b (expireFrom codec now l b) := by
  induction l generalizing b with
  | nil => exact .refl b
  | cons e rest ih =>
    rw [expireFrom]
    split
    · exact .refl b
    · exact .head horder (ih (by rw [remove_head horder]))

theorem expireFrom_order (l : List (ResponseBinding Selection)) (horder : b.order = l) :
    (expireFrom codec now l b).order = l.dropWhile (·.expiresAt ≤ now) := by
  induction l generalizing b with
  | nil => exact horder
  | cons e rest ih =>
    rw [expireFrom, dropWhile_cons]
    by_cases live : now < e.expiresAt
    · simp [live, horder, Int.not_le.mpr live]
    · simp [live, Int.not_lt.mp live, ih (b := b.remove codec e) (by rw [remove_head horder])]

theorem evictFrom_shrinks (amount : Int) (l : List (ResponseBinding Selection))
    (horder : b.order = l) : Shrinks codec b (evictFrom codec amount l b) := by
  induction l generalizing b with
  | nil => exact .refl b
  | cons e rest ih =>
    rw [evictFrom]
    split
    · exact .head horder (ih (by rw [remove_head horder]))
    · exact .refl b

/-! ## Inserting -/

section

variable (h : b.Consistent codec)
include h

theorem Consistent.insert (binding : ResponseBinding Selection) :
    (b.insert codec binding).1.Consistent codec := by
  unfold ResponseBindings.insert
  split
  · rename_i existing _
    split
    swap
    · exact h
    have keys : (b.order.map fun e => if e.key = binding.key then
        { e with expiresAt := binding.expiresAt } else e).map ResponseBinding.key =
        b.order.map ResponseBinding.key := by
      simp only [map_map]
      refine map_congr_left fun e _ => ?_
      simp only [Function.comp_apply]
      split <;> rfl
    have sizes : (b.order.map fun e => if e.key = binding.key then
        { e with expiresAt := binding.expiresAt } else e).map (bindingBytes codec) =
        b.order.map (bindingBytes codec) := by
      simp only [map_map]
      refine map_congr_left fun e _ => ?_
      simp only [Function.comp_apply]
      split <;> rfl
    exact ⟨keys ▸ h.distinct, sizes ▸ h.counted, h.positive⟩
  · rename_i absent
    split
    · exact h
    dsimp only
    split
    · exact h
    have shrinks : Shrinks codec b (evictFrom codec (bindingBytes codec binding) b.order b) :=
      evictFrom_shrinks _ _ rfl
    have kept := shrinks.consistent h
    refine ⟨?_, ?_, kept.positive⟩
    · rw [map_append, nodup_append]
      refine ⟨kept.distinct, by simp, ?_⟩
      rintro _ hk _ hk' rfl
      obtain ⟨e, he, rfl⟩ := mem_map.mp hk
      exact entry_eq_none.mp absent e (shrinks.order.subset he) (by simpa using hk')
    · simp [kept.counted]

theorem Consistent.expire : (b.expire codec now).Consistent codec :=
  (expireFrom_shrinks b.order rfl).consistent h

/-- Every operation keeps the index consistent. -/
theorem Consistent.apply (operation : BindingOperation Selection)
    : (operation.apply codec b now).Consistent codec := by
  cases operation with
  | lookup accessKeyID responseID =>
    simp only [BindingOperation.apply, lookup]
    split
    · exact h
    rename_i binding found
    split
    · exact h
    · exact h.remove (h.entry_eq.mp found).1
  | record accessKeyID responseID ref autoSelection =>
    simp only [BindingOperation.apply, record]
    split
    · exact h.expire.insert _
    · exact h
  | prepareResource => exact h
  | remember binding =>
    simp only [BindingOperation.apply, remember]
    split
    swap
    · exact h
    refine Consistent.insert (Consistent.expire ?_) _
    split
    · rename_i existing found
      split
      · exact h
      · exact h.remove (h.entry_eq.mp found).1
    · exact h
  | captureCheckpoint => exact h.expire
  | restoreCheckpoint checkpoint =>
    have blank (b : ResponseBindings Selection) (h : b.Consistent codec) :
        b.reset.Consistent codec := ⟨by simp [reset], rfl, h.positive⟩
    have loop (l : List (ResponseBinding Selection)) (b : ResponseBindings Selection)
        (h : b.Consistent codec) : (restoreFrom codec now l b).1.Consistent codec := by
      induction l generalizing b with
      | nil => exact h
      | cons binding rest ih =>
        rw [restoreFrom]
        split
        swap
        · exact ih b h
        have inserted := h.insert binding
        split
        · rename_i hb
          rw [hb] at inserted
          exact ih _ inserted
        rename_i hb
        rw [hb] at inserted
        exact blank _ inserted
    exact loop _ _ (blank b h)

theorem Consistent.after (history : List (Int × BindingOperation Selection)) :
    (b.after codec history).Consistent codec := by
  induction history generalizing b with
  | nil => exact h
  | cons call history ih => exact ih (h.apply call.2)

end

/-! ## Recording -/

/-- An entry of this key has expired, and one in front of it has not. -/
def Hidden (b : ResponseBindings Selection) (now : Int) (k : Nat × String)
    (stale : ResponseBinding Selection) : Prop :=
  ∃ before after live, b.order = before ++ stale :: after ∧ stale.key = k ∧ stale.expiresAt ≤ now ∧
    live ∈ before ∧ now < live.expiresAt

theorem entry_expire_live (h : b.Consistent codec) (he : b.entry k = some e)
    (live : now < e.expiresAt) : (b.expire codec now).entry k = some e := by
  obtain ⟨hmem, hkey⟩ := h.entry_eq.mp he
  rw [h.expire.entry_eq, expire, expireFrom_order _ rfl]
  refine ⟨?_, hkey⟩
  have split := takeWhile_append_dropWhile (p := fun x => decide (x.expiresAt ≤ now)) (l := b.order)
  rw [← split, mem_append] at hmem
  refine hmem.resolve_left fun hm => ?_
  have expired := mem_takeWhile_imp hm
  simp at expired
  omega

theorem entry_expire_of_none (h : b.entry k = none) : (b.expire codec now).entry k = none := by
  rw [entry_eq_none] at h ⊢
  exact fun e he => h e ((expireFrom_shrinks b.order rfl).order.subset he)

theorem Hidden.entry_expire (h : b.Consistent codec) (hidden : b.Hidden now k e) :
    (b.expire codec now).entry k = some e := by
  obtain ⟨before, after, live, horder, hkey, -, hlive, hnow⟩ := hidden
  rw [h.expire.entry_eq, expire, expireFrom_order _ rfl, horder,
    dropWhile_append]
  have stops : (before.dropWhile fun x => decide (x.expiresAt ≤ now)).isEmpty = false := by
    rw [isEmpty_eq_false_iff, ne_eq, dropWhile_eq_nil_iff]
    intro all
    have := all live hlive
    simp at this
    omega
  simp [stops, hkey]

/-- An expired entry that `expire` leaves is hidden. -/
theorem hidden_of_entry_expire (h : b.Consistent codec) (he : b.entry k = some e)
    (stale : e.expiresAt ≤ now) (stays : (b.expire codec now).entry k = some x) :
    b.Hidden now k e := by
  obtain ⟨hmem, hkey⟩ := h.entry_eq.mp he
  obtain ⟨hx, hxkey⟩ := h.expire.entry_eq.mp stays
  obtain ⟨before, after, horder⟩ := append_of_mem hmem
  rw [expire, expireFrom_order _ rfl, horder, dropWhile_append] at hx
  by_contra notHidden
  have expired : ∀ live ∈ before, live.expiresAt ≤ now := by
    intro live hlive
    by_contra hnow
    exact notHidden ⟨before, after, live, horder, hkey, stale, hlive, by omega⟩
  have empty : (before.dropWhile fun x => decide (x.expiresAt ≤ now)) = [] := by
    rw [dropWhile_eq_nil_iff]
    simpa using expired
  simp only [empty, isEmpty_nil, if_true, dropWhile_cons, stale, decide_true] at hx
  -- Behind the entry its key does not occur again.
  have distinct := h.distinct
  rw [horder, map_append, nodup_append, map_cons, nodup_cons] at distinct
  apply distinct.2.1.1
  rw [hkey, ← hxkey]
  exact mem_map_of_mem ((dropWhile_sublist _).subset hx)

/-- The size of the entry that `Record` would add is within the limit. -/
def Fits (codec : SelectionCodec Selection) (binding : ResponseBinding Selection) : Prop :=
  bindingBytes codec binding ≤ maxResponseBindingIDBytes

/-- A key that is not there is inserted exactly if it fits, and is found then. -/
theorem insert_absent (h : b.Consistent codec) (binding : ResponseBinding Selection)
    (absent : b.entry binding.key = none) :
    ((b.insert codec binding).2 = true ↔ Fits codec binding) ∧
      ((b.insert codec binding).2 = true →
        (b.insert codec binding).1.entry binding.key = some binding) := by
  have settings : ¬ (b.capacity ≤ 0 ∨ b.ttl ≤ 0) := by
    have := h.positive
    omega
  simp only [insert, absent, if_neg settings, Fits]
  split
  · rename_i large
    exact ⟨by simpa using large, by simp⟩
  rename_i fits
  refine ⟨by simpa using Int.not_lt.mp fits, fun _ => ?_⟩
  have shrinks : Shrinks codec b (evictFrom codec (bindingBytes codec binding) b.order b) :=
    evictFrom_shrinks _ _ rfl
  rw [entry, find?_append, find?_eq_none.mpr ?_]
  · simp
  · intro e he
    simpa using entry_eq_none.mp absent e (shrinks.order.subset he)

/-- A key that is there is inserted exactly for the same owner, and keeps its entry but for an
earlier expiry. -/
theorem insert_present (h : b.Consistent codec) (binding : ResponseBinding Selection)
    (present : b.entry binding.key = some e) :
    (b.insert codec binding).2 = sameOwner codec e binding ∧
      (sameOwner codec e binding = true → (b.insert codec binding).1.entry binding.key =
        some { e with expiresAt := min e.expiresAt binding.expiresAt }) := by
  obtain ⟨hmem, hkey⟩ := h.entry_eq.mp present
  have kept := h.insert binding
  simp only [insert, present] at kept ⊢
  split
  · rename_i shorter
    simp only [Bool.and_eq_true, decide_eq_true_eq] at shorter
    simp only [shorter.1, shorter.2, decide_true, Bool.and_self, if_true] at kept
    refine ⟨shorter.1.symm, fun _ => kept.entry_eq.mpr ⟨?_, hkey⟩⟩
    refine mem_map.mpr ⟨e, hmem, ?_⟩
    simp only [hkey, if_true]
    rw [min_eq_right shorter.2.le]
  · rename_i longer
    refine ⟨rfl, fun same => ?_⟩
    have : e.expiresAt ≤ binding.expiresAt := by
      simpa [same] using longer
    rw [present, min_eq_left this]

theorem lookup_entry :
    (b.lookup codec now accessKeyID responseID).2 =
      (b.entry (accessKeyID, responseID)).filter (now < ·.expiresAt) := by
  unfold lookup
  cases b.entry (accessKeyID, responseID) with
  | none => rfl
  | some binding =>
    by_cases live : now < binding.expiresAt <;> simp [live, Option.filter]

variable {accessKeyID : Nat} {responseID : String} {ref : CredentialRef}
  {autoSelection : Option Selection}

/-- `Record` as the claim of its callers: what it accepts can be looked up at once, and what has no
owner at the time is accepted if it fits. -/
structure Usable (codec : SelectionCodec Selection) (b : ResponseBindings Selection) (now : Int)
    (accessKeyID : Nat) (responseID : String) (ref : CredentialRef)
    (autoSelection : Option Selection) : Prop where
  found : (b.record codec now accessKeyID responseID ref autoSelection).2 = true →
    ∃ e, ((b.record codec now accessKeyID responseID ref autoSelection).1.lookup codec now
      accessKeyID responseID).2 = some e ∧ e.ownedBy ref
  accepted : (b.candidate codec now accessKeyID responseID ref autoSelection).complete = true →
    (∀ e ∈ b.order, e.key = (accessKeyID, responseID) → e.expiresAt ≤ now) →
    Fits codec (b.candidate codec now accessKeyID responseID ref autoSelection) →
    (b.record codec now accessKeyID responseID ref autoSelection).2 = true

theorem record_complete
    (complete : (b.candidate codec now accessKeyID responseID ref autoSelection).complete = true) :
    b.record codec now accessKeyID responseID ref autoSelection = (b.expire codec now).insert codec
      (b.candidate codec now accessKeyID responseID ref autoSelection) := by
  simp [record, complete]

section

variable (h : b.Consistent codec)
  (complete : (b.candidate codec now accessKeyID responseID ref autoSelection).complete = true)
include h complete

/-- Without an entry of the key, `Record` is usable. -/
theorem usable_of_absent (absent : (b.expire codec now).entry (accessKeyID, responseID) = none) :
    Usable codec b now accessKeyID responseID ref autoSelection := by
  let binding := b.candidate codec now accessKeyID responseID ref autoSelection
  obtain ⟨accepts, found⟩ := insert_absent h.expire binding absent
  refine ⟨?_, ?_⟩
  · rw [record_complete complete]
    intro accepted
    refine ⟨binding, ?_, rfl, rfl, rfl⟩
    have entry : ((b.expire codec now).insert codec binding).1.entry (accessKeyID, responseID) =
      some binding := found accepted
    have live : now < binding.expiresAt := by
      have := h.positive.2
      simp only [binding, candidate]
      omega
    rw [lookup_entry, entry]
    simp [Option.filter, live]
  · intro _ _ fits
    rw [record_complete complete]
    exact accepts.mpr fits

/-- With an entry that has not expired, `Record` is usable. -/
theorem usable_of_live (present : b.entry (accessKeyID, responseID) = some e)
    (live : now < e.expiresAt) :
    Usable codec b now accessKeyID responseID ref autoSelection := by
  let binding := b.candidate codec now accessKeyID responseID ref autoSelection
  obtain ⟨accepts, found⟩ := insert_present h.expire binding (entry_expire_live h present live)
  refine ⟨?_, ?_⟩
  · rw [record_complete complete]
    intro accepted
    have same : sameOwner codec e binding = true := accepts ▸ accepted
    have entry : ((b.expire codec now).insert codec binding).1.entry (accessKeyID, responseID) =
      some { e with expiresAt := min e.expiresAt binding.expiresAt } := found same
    have later : now < min e.expiresAt binding.expiresAt := by
      have := h.positive.2
      have expiresAt : binding.expiresAt = now + b.ttl := rfl
      omega
    refine ⟨{ e with expiresAt := min e.expiresAt binding.expiresAt }, ?_, ?_⟩
    · rw [lookup_entry, entry]
      simp [Option.filter, later]
    · simp only [sameOwner, Bool.and_eq_true, decide_eq_true_eq] at same
      exact ⟨same.1.1.1, same.1.1.2, same.1.2⟩
  · intro _ expired
    obtain ⟨hmem, hkey⟩ := h.entry_eq.mp present
    have := expired e hmem hkey
    omega

end

/-- `Record` keeps its promise exactly if no expired entry of the key stands behind one that has not
expired and is compared with the new owner. -/
theorem usable_iff (h : b.Consistent codec) :
    Usable codec b now accessKeyID responseID ref autoSelection ↔
      ¬ ∃ stale, b.Hidden now (accessKeyID, responseID) stale ∧
        (b.candidate codec now accessKeyID responseID ref autoSelection).complete = true ∧
        (Fits codec (b.candidate codec now accessKeyID responseID ref autoSelection) ∨
          sameOwner codec stale
            (b.candidate codec now accessKeyID responseID ref autoSelection) = true) := by
  let binding := b.candidate codec now accessKeyID responseID ref autoSelection
  constructor
  · rintro usable ⟨stale, hidden, complete, fitsOrSame⟩
    obtain ⟨accepts, found⟩ := insert_present h.expire binding (hidden.entry_expire h)
    obtain ⟨before, after, -, horder, hkey, expired, -, -⟩ := hidden
    have present : b.entry (accessKeyID, responseID) = some stale :=
      h.entry_eq.mpr ⟨by simp [horder], hkey⟩
    have alone : ∀ e ∈ b.order, e.key = (accessKeyID, responseID) → e.expiresAt ≤ now := by
      intro e he hek
      have : b.entry (accessKeyID, responseID) = some e := h.entry_eq.mpr ⟨he, hek⟩
      rw [present] at this
      exact Option.some.inj this ▸ expired
    cases same : sameOwner codec stale binding with
    | true =>
      -- Accepted, but the entry is still the expired one.
      have accepted : (b.record codec now accessKeyID responseID ref autoSelection).2 = true := by
        rw [record_complete complete]
        exact accepts.trans same
      obtain ⟨e, he, -⟩ := usable.found accepted
      have entry : ((b.expire codec now).insert codec binding).1.entry (accessKeyID, responseID) =
        some { stale with expiresAt := min stale.expiresAt binding.expiresAt } := found same
      have past : ¬ now < min stale.expiresAt binding.expiresAt := by omega
      rw [record_complete complete] at he
      rw [lookup_entry, entry] at he
      simp [Option.filter, past] at he
    | false =>
      have fits := fitsOrSame.resolve_right (by simpa using same)
      have accepted := usable.accepted complete alone fits
      rw [record_complete complete] at accepted
      have refused : ((b.expire codec now).insert codec binding).2 = false := accepts.trans same
      exact absurd accepted (by simpa using refused)
  · intro clear
    by_cases complete : binding.complete = true
    · cases present : b.entry (accessKeyID, responseID) with
      | none => exact usable_of_absent h complete (entry_expire_of_none present)
      | some e =>
        by_cases live : now < e.expiresAt
        · exact usable_of_live h complete present live
        have stale : e.expiresAt ≤ now := by omega
        cases stays : (b.expire codec now).entry (accessKeyID, responseID) with
        | none => exact usable_of_absent h complete stays
        | some x =>
          have hidden := hidden_of_entry_expire h present stale stays
          obtain ⟨accepts, -⟩ := insert_present h.expire binding (hidden.entry_expire h)
          have neither : ¬ (Fits codec binding ∨ sameOwner codec e binding = true) :=
            fun either => clear ⟨e, hidden, complete, either⟩
          refine ⟨?_, fun _ _ fits => absurd (Or.inl fits) neither⟩
          rw [record_complete complete]
          intro accepted
          exact absurd (Or.inr (accepts ▸ accepted)) neither
    · have refused : (b.record codec now accessKeyID responseID ref autoSelection).2 = false := by
        simp only [record]
        rw [if_neg complete]
      exact ⟨by simp [refused], fun hc => absurd hc complete⟩

end ResponseBindings

/-- After every history of operations on an index with positive capacity and time to live, `Record`
keeps its promise exactly if no expired entry of the key stands behind one that has not expired. -/
theorem recorded_binding_usable_iff (codec : SelectionCodec Selection) {capacity ttl : Int}
    (positive : 0 < capacity ∧ 0 < ttl) (history : List (Int × BindingOperation Selection))
    (now : Int) (accessKeyID : Nat) (responseID : String) (ref : CredentialRef)
    (autoSelection : Option Selection) :
    let b := after codec history { capacity, ttl }
    ResponseBindings.Usable codec b now accessKeyID responseID ref autoSelection ↔
      ¬ ∃ stale, b.Hidden now (accessKeyID, responseID) stale ∧
        (b.candidate codec now accessKeyID responseID ref autoSelection).complete = true ∧
        (ResponseBindings.Fits codec
          (b.candidate codec now accessKeyID responseID ref autoSelection) ∨
          sameOwner codec stale
            (b.candidate codec now accessKeyID responseID ref autoSelection) = true) := by
  have blank : ResponseBindings.Consistent codec { capacity, ttl } := ⟨by simp, rfl, positive⟩
  exact usable_iff (blank.after history)

def noSelections : SelectionCodec Unit := ⟨fun _ => "", fun _ => ()⟩

def sampleRef (id : Nat) : CredentialRef where
  id := id
  groupID := 1
  version := 1
  identityGeneration := 1
  fingerprint := ""
  encryptedValue := ""
  encryptedProxy := ""
  proxyFingerprint := ""
  failureGeneration := 0
  modelCooldownGeneration := 0

def sampleRemembered : ResponseBinding Unit where
  accessKeyID := 1
  responseID := "second"
  groupID := 1
  credentialID := 1
  identityGeneration := 1
  expiresAt := 1

/-- A response of credential 1 is recorded for thirty days; behind it, a binding of the same
credential is remembered until time 1. -/
def hiddenHistory : List (Int × BindingOperation Unit) :=
  [(0, .record 1 "first" (sampleRef 1) none), (0, .remember sampleRemembered)]

/-- At time 2 no unexpired binding exists for the second response. `Record` refuses another owner;
it accepts the same owner, but the binding cannot be looked up. -/
theorem hidden_binding_in_the_way :
    let b := after noSelections hiddenHistory {}
    (b.order.all fun e => decide (e.key = (1, "second") → e.expiresAt ≤ 2)) = true ∧
    (b.record noSelections 2 1 "second" (sampleRef 2) none).2 = false ∧
    (b.record noSelections 2 1 "second" (sampleRef 1) none).2 = true ∧
    ((b.record noSelections 2 1 "second" (sampleRef 1) none).1.lookup noSelections 2 1 "second").2 =
      none := by
  decide +kernel

/-- Beside the stale entry, `Record` keeps its promise for the live one in front of it. -/
theorem recorded_binding_usable_beside :
    let b := after noSelections hiddenHistory {}
    b.Hidden 2 (1, "second") sampleRemembered ∧
      b.Usable noSelections 2 1 "first" (sampleRef 1) none := by
  refine ⟨?_, (recorded_binding_usable_iff noSelections (by decide) hiddenHistory 2 1 "first"
    (sampleRef 1) none).mpr ?_⟩
  · exact ⟨[_], [], _, rfl, rfl, by decide, List.mem_singleton_self _, by decide +kernel⟩
  rintro ⟨stale, ⟨before, rest, live, order, key, expired, -⟩, -⟩
  have listed : stale ∈ (after noSelections hiddenHistory {}).order := by simp [order]
  have fresh : ((after noSelections hiddenHistory {}).order.all fun e =>
      decide (e.key = (1, "first") → 2 < e.expiresAt)) = true := by decide +kernel
  have := of_decide_eq_true (List.all_eq_true.mp fresh stale listed) key
  omega

end ApiLoad.State
