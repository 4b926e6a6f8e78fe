import Courier.Proofs.Delivery.Landing

/-!
# Records by themselves

A record that is processed alone comes to what its call in a batch comes to. The two may draw
different ids; where attempts come to the same all the same, so do the calls.
-/

namespace Courier.Schedule

variable {σ τ : Type} {w : World σ} {t : Delivery} {record : InboundRecord}
  {outcome outcome' : Request → UInt32 → Except TransportError Response}
  {brokers : Broker Exchange → Prop} {effects : List Effect} [Pattern.Room]

theorem finish_over (hw : w.Answers outcome) {f : Flight} {s : Site σ} {ms fuel time : Nat}
    (hfuel : left (.inr f) ≤ fuel) (h : Underway w t record outcome effects (.inr f)) :
    ∃ more, Over w t record outcome (fun _ => True) (effects ++ more)
      (Site.finish w t fuel time (.wait ms f, s)).1.1 := by
  induction fuel generalizing effects f s ms time with
  | zero => cases f <;> simp [left] at hfuel
  | succ fuel ih =>
    have heq := @resume_eq _ w t _ ⟨s, {}⟩ f h.compiled
    have hgets := @gets_resume _ w t record outcome _ (fun _ => True) effects ⟨s, {}⟩ hw f trivial
      h
    have hlt := @leftOf_resume_lt _ w t record outcome _ effects ⟨s, {}⟩ hw f h
    simp only [Site.finish, ← heq]
    cases hleg : (resume w t ⟨s, {}⟩ f).leg with
    | wait ms' f' =>
      rw [hleg] at hgets hlt
      obtain ⟨more, hmore⟩ := ih (by simp only [leftOf] at hlt; omega) hgets
      exact ⟨_, List.append_assoc .. ▸ hmore⟩
    | landed result =>
      rw [hleg] at hgets
      exact ⟨_, by rw [Site.finish_landed]; exact hgets⟩

theorem process_over (hw : w.Answers outcome) (s : Site σ) :
    ∃ more, Over w t record outcome (fun _ => True) (.drew (w.freshIds s.world).1 :: more)
      (Site.process w t s record).1.1 := by
  rw [Site.process, ← @launch_eq _ w t record _ ⟨s, {}⟩]
  rcases launch_cases w t ⟨s, {}⟩ record with ⟨i, ms, s', hi, hleg, -⟩ | ⟨e, he, hleg, -⟩
  · rw [hleg]
    have hone : (i.numbered 1).number.toNat = 1 := rfl
    have hsize : 1 < UInt32.size := by decide
    have hfuel : left (.inr (.answering (i.numbered 1) (w.send s' i.request (.ofNat 1)).1.2)) ≤
        Site.patience := by
      have hpatience : Site.patience = 4 * UInt32.size := rfl
      simp only [left, hone]
      omega
    obtain ⟨more, hmore⟩ := finish_over hw hfuel (.answering hi (.one i))
    exact ⟨_, hmore⟩
  · rw [hleg, Site.finish_landed]
    exact ⟨[], .rejected he⟩

theorem process_of_prepare (hw : w.Answers outcome) (s : Site σ) :
    match t.prepare (w.freshIds s.world).1 record with
    | .ok _ => ∃ x, (s.process w t record).1.1 = .ok x
    | .error e => (s.process w t record).1.1 = .error e := by
  obtain ⟨more, hover⟩ := @process_over _ w t record outcome _ hw s
  generalize (s.process w t record).1.1 = result, (w.freshIds s.world).1 = ids at hover ⊢
  cases hover with
  | rejected he => rw [he]
  | ended hi =>
    rw [hi]
    exact ⟨_, rfl⟩

/-- A call went as if its record had been alone. It drew ids once, and if it ended with an error
that is all it did. In any world where the attempts come to the same, whatever ids are drawn there,
the record by itself comes to the same too. -/
def Undisturbed (w : World σ) (t : Delivery)
    (outcome : Request → UInt32 → Except TransportError Response) (record : InboundRecord)
    (effects : List Effect) (result : Except Rejection Exchange) : Prop :=
  ∃ drawn more, effects = .drew (w.freshIds drawn).1 :: more ∧
    (∀ e, result = .error e → more = []) ∧
    ∀ (τ : Type) (w' : World τ) (s : Site τ) outcome', w'.Answers outcome' →
      (∀ i i', t.prepare (w.freshIds drawn).1 record = .ok i →
        t.prepare (w'.freshIds s.world).1 record = .ok i' →
        ∀ number, outcome i.request number = outcome' i'.request number) →
      result.map (Exchange.account record) =
        (s.process w' t record).1.1.map (Exchange.account record) ∧
      -- With the same ids the requests are the same, and but for the clock the exchanges.
      (t.prepare (w.freshIds drawn).1 record = t.prepare (w'.freshIds s.world).1 record →
        result.map (·.request) = (s.process w' t record).1.1.map (·.request) ∧
        (w.Alike w' → result = (s.process w' t record).1.1))

variable {w' : World τ} {brokers' : Broker Exchange → Prop} {ids ids' : FreshIds}
  {more more' : List Effect} {result result' : Except Rejection Exchange}

theorem Over.cases_alike
    (h : Over w t record outcome brokers (.drew ids :: more) result)
    (h' : Over w' t record outcome' brokers' (.drew ids' :: more') result')
    (hsame : ∀ i i', t.prepare ids record = .ok i → t.prepare ids' record = .ok i' →
      ∀ number, outcome i.request number = outcome' i'.request number) :
    (∃ e, result = .error e ∧ result' = .error e) ∨
    ∃ i i' n sent sent', t.prepare ids record = .ok i ∧ t.prepare ids' record = .ok i' ∧
      result = .ok (i.exchange n (w.send sent i.request (.ofNat n)).1.2) ∧
      result' = .ok (i'.exchange n (w'.send sent' i'.request (.ofNat n)).1.2) := by
  have hids := t.prepare_withIdsOf record ids ids'
  cases h with
  | rejected he =>
    cases h' with
    | rejected he' =>
      rw [he, he'] at hids
      exact .inl ⟨_, rfl, congrArg Except.error (Except.error.inj hids.symm)⟩
    | ended hi' =>
      rw [he, hi'] at hids
      cases hids
  | @ended _ sent i n x _ hi hn hx =>
    cases h' with
    | rejected he' =>
      rw [hi, he'] at hids
      cases hids
    | @ended _ sent' i' n' x' _ hi' hn' hx' =>
      rw [hi, hi'] at hids
      obtain rfl := (hn.congr (Except.ok.inj hids) (hsame i i' hi hi')).unique hn'
      exact .inr ⟨i, i', n, sent, sent', hi, hi', hx ▸ rfl, hx' ▸ rfl⟩

theorem Over.undisturbed (hw : w.Answers outcome)
    (h : Over w t record outcome brokers effects result) :
    Undisturbed w t outcome record effects result := by
  obtain ⟨drawn, more, rfl, herror⟩ := over_drew h
  refine ⟨drawn, more, rfl, herror, fun τ w' s outcome' hw' hsame => ?_⟩
  obtain ⟨more', h'⟩ := @process_over _ w' t record outcome' _ hw' s
  rcases h.cases_alike h' hsame with ⟨e, he, he'⟩ | ⟨i, i', n, sent, sent', hi, hi', hx, hx'⟩
  · rw [he, he']
    exact ⟨rfl, fun _ => ⟨rfl, fun _ => rfl⟩⟩
  · rw [hx, hx']
    constructor
    · have hids := t.prepare_withIdsOf record (w.freshIds drawn).1 (w'.freshIds s.world).1
      rw [hi, hi'] at hids
      have hresult : (w.send sent i.request (.ofNat n)).1.2.result =
          (w'.send sent' i'.request (.ofNat n)).1.2.result := by
        rw [hw, hw', hsame i i' hi hi']
      exact congrArg Except.ok (Invocation.account_exchange (Except.ok.inj hids) hresult)
    · intro hids
      rw [hi, hi'] at hids
      cases hids
      exact ⟨rfl, fun halike => by rw [halike sent sent']⟩

end Courier.Schedule
