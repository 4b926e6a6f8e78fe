import Courier.Http.Request

/-!
# Reopened requests

A draft that is built, reopened and taken further builds what it builds without the detour, with one
exception: a request whose draft gave no body has the empty text for one, and reopening it makes
that a body given. Bytes or parts that come later are then one body too many.
-/

namespace Courier

def Step.bodyKind? : Step → Option BodyKind
  | .body b => some b.kind
  | _ => none

namespace Draft

variable {d : Draft} {r : Request}

theorem steps_append (d : Draft) (a b : List Step) : d.steps (a ++ b) = (d.steps a).steps b :=
  List.foldl_append

-- ---------------------------------------------------------------------------
-- Drafts alike
-- ---------------------------------------------------------------------------

def requestOf (d : Draft) (url : String) (method : Method) (addressed : Text.allBlank url = false)
    (body : Body) : Request :=
  { requestId := d.requestId, correlationId := d.correlationId, url, method, headers := d.headers,
    timeout := d.timeout, retry := d.retry, body, addressed }

theorem build_bind {d d' : Draft} {f : Request → Except Rejection Request} (hurl : d'.url = d.url)
    (hmethod : d'.method = d.method)
    (hrequest : ∀ url method addressed, d'.body?.map (d'.requestOf url method addressed) =
      (d.body?.map (d.requestOf url method addressed)).bind f) :
    d'.build = d.build.bind f := by
  rw [build, build, hurl, hmethod]
  split
  · rfl
  · split
    · rfl
    · split
      · rfl
      · exact hrequest _ _ _

theorem build_map {d d' : Draft} {f : Request → Request} (hurl : d'.url = d.url)
    (hmethod : d'.method = d.method) (hbody : d'.body? = d.body?)
    (hrequest : ∀ url method addressed body,
      d'.requestOf url method addressed body = f (d.requestOf url method addressed body)) :
    d'.build = d.build.map f := by
  have hmap : d.build.map f = d.build.bind (.ok ∘ f) := by cases d.build <;> rfl
  rw [hmap]
  refine build_bind hurl hmethod fun url method addressed => ?_
  rw [hbody, funext (hrequest url method addressed)]
  cases d.body? <;> rfl

-- ---------------------------------------------------------------------------
-- Bodies given
-- ---------------------------------------------------------------------------

def gives (d : Draft) : BodyKind → Bool
  | .text => d.text.isSome
  | .bytes => d.bytes.isSome
  | .parts => d.parts.isSome

theorem gives_step (d : Draft) (s : Step) (k : BodyKind) :
    (d.step s).gives k = (d.gives k || s.bodyKind? == some k) := by
  cases s with
  | body b => cases b <;> cases k <;> simp [step, setBody, gives, Step.bodyKind?, Body.kind]
  | _ => exact (Bool.or_false _).symm

theorem gives_steps (d : Draft) (ss : List Step) (k : BodyKind) :
    (d.steps ss).gives k = (d.gives k || ss.any (·.bodyKind? == some k)) := by
  induction ss generalizing d with
  | nil => exact (Bool.or_false _).symm
  | cons s ss ih =>
    show ((d.step s).steps ss).gives k = _
    rw [ih, gives_step, List.any_cons, Bool.or_assoc]

theorem gives_steps_iff (ss : List Step) (k : BodyKind) :
    (Draft.steps {} ss).gives k = true ↔ ∃ s ∈ ss, s.bodyKind? = some k := by
  have hnone : Draft.gives {} k = false := by cases k <;> rfl
  rw [gives_steps, hnone]
  simp

-- ---------------------------------------------------------------------------
-- Drafts with a text
-- ---------------------------------------------------------------------------

def withText (d : Draft) : Draft :=
  { d with text := some (d.text.getD "") }

theorem step_withText (d : Draft) (s : Step) : d.withText.step s = (d.step s).withText := by
  cases s with
  | body b => cases b <;> rfl
  | _ => rfl

theorem steps_withText (d : Draft) (ss : List Step) :
    d.withText.steps ss = (d.steps ss).withText := by
  induction ss generalizing d with
  | nil => rfl
  | cons s ss ih =>
    show (d.withText.step s).steps ss = ((d.step s).steps ss).withText
    rw [step_withText, ih]

def onlyText (b : Body) : Except Rejection Body :=
  if b.kind = .text then .ok b else .error .ambiguousBody

theorem body?_withText (d : Draft) : d.withText.body? = d.body?.bind onlyText := by
  obtain ⟨_, _, _, _, _, _, _, text, bytes, parts⟩ := d
  cases text <;> cases bytes <;> cases parts <;> rfl

theorem build_withText (d : Draft) :
    d.withText.build = d.build.bind fun r =>
      if r.body.kind = .text then .ok r else .error .ambiguousBody := by
  refine build_bind rfl rfl fun url method addressed => ?_
  rw [body?_withText]
  cases d.body? with
  | error e => rfl
  | ok body =>
    by_cases hkind : body.kind = .text
    · simp only [Except.bind, Except.map, onlyText, requestOf, if_pos hkind]
      rfl
    · simp only [Except.bind, Except.map, onlyText, requestOf, if_neg hkind]

-- ---------------------------------------------------------------------------
-- Reopening
-- ---------------------------------------------------------------------------

theorem build_eq_ok (h : d.build = .ok r) :
    d.url = some r.url ∧ d.method = some r.method ∧ d.body? = .ok r.body ∧
      d.requestId = r.requestId ∧ d.correlationId = r.correlationId ∧ d.headers = r.headers ∧
      d.timeout = r.timeout ∧ d.retry = r.retry := by
  rw [build] at h
  split at h
  · cases h
  · next url hurl =>
    split at h
    · cases h
    · split at h
      · cases h
      · next method hmethod =>
        cases hbody : d.body? with
        | error e => simp [hbody, Except.map] at h
        | ok body =>
          simp only [hbody, Except.map, Except.ok.injEq] at h
          subst h
          exact ⟨hurl, hmethod, rfl, rfl, rfl, rfl, rfl, rfl⟩

theorem body_of_build (h : d.build = .ok r) :
    (∀ k, d.gives k = true ↔ k = r.body.kind) ∨
      (∀ k, d.gives k = false) ∧ r.body = .text "" := by
  obtain ⟨-, -, hbody, -⟩ := build_eq_ok h
  obtain ⟨_, _, _, _, _, _, _, text, bytes, parts⟩ := d
  generalize r.body = body at hbody
  cases text <;> cases bytes <;> cases parts <;> cases hbody
  case none.none.none => exact .inr ⟨fun k => by cases k <;> rfl, rfl⟩
  all_goals exact .inl fun k => by cases k <;> simp [gives, Body.kind]

theorem kind_ne_text_iff (h : d.build = .ok r) :
    r.body.kind ≠ .text ↔ ∃ k ≠ .text, d.gives k = true := by
  rcases body_of_build h with hgiven | ⟨hnone, hbody⟩
  · simp [hgiven]
  · simp [hnone, hbody, Body.kind]

/-- Only a request whose draft gave no body comes back with one more. -/
theorem reopen_of_build (h : d.build = .ok r) :
    (∀ k, d.gives k = false) ∧ r.reopen = d.withText ∨
      (∃ k, d.gives k = true) ∧ r.reopen = d := by
  obtain ⟨hurl, hmethod, hbody, hrequestId, hcorrelationId, hheaders, htimeout, hretry⟩ :=
    build_eq_ok h
  obtain ⟨_, _, _, _, _, _, _, text, bytes, parts⟩ := d
  obtain ⟨_, _, _, _, _, _, _, body, _⟩ := r
  simp only at hurl hmethod hrequestId hcorrelationId hheaders htimeout hretry
  subst hurl hmethod hrequestId hcorrelationId hheaders htimeout hretry
  cases text <;> cases bytes <;> cases parts <;> cases hbody
  case none.none.none => exact .inl ⟨fun k => by cases k <;> rfl, rfl⟩
  case some.none.none => exact .inr ⟨⟨.text, rfl⟩, rfl⟩
  case none.some.none => exact .inr ⟨⟨.bytes, rfl⟩, rfl⟩
  case none.none.some => exact .inr ⟨⟨.parts, rfl⟩, rfl⟩

end Draft

namespace Request

theorem build_reopen (r : Request) : r.reopen.build = .ok r := by
  obtain ⟨_, _, _, _, _, _, _, body, addressed⟩ := r
  cases body <;> simp [reopen, Draft.setBody, Draft.build, Draft.body?, addressed, Except.map]

/-- The first steps give no body, the later ones bytes or parts, and all of them make a request. -/
def DefaultCounts (a b : List Step) : Prop :=
  (∀ s ∈ a, s.bodyKind? = none) ∧ (∃ k ≠ .text, ∃ s ∈ b, s.bodyKind? = some k) ∧
    ∃ r, (Draft.steps {} (a ++ b)).build = .ok r

theorem gives_none_iff (a : List Step) :
    (∀ k, (Draft.steps {} a).gives k = false) ↔ ∀ s ∈ a, s.bodyKind? = none := by
  simp only [← Bool.not_eq_true, Draft.gives_steps_iff, Option.eq_none_iff_forall_ne_some]
  exact ⟨fun h s hs k hk => h k ⟨s, hs, hk⟩, fun h k ⟨s, hs, hk⟩ => h s hs k hk⟩

theorem defaultCounts_iff {a b : List Step} {r : Request}
    (h : (Draft.steps {} (a ++ b)).build = .ok r) (hnone : ∀ s ∈ a, s.bodyKind? = none) :
    DefaultCounts a b ↔ r.body.kind ≠ .text := by
  rw [Draft.kind_ne_text_iff h]
  simp only [Draft.gives_steps_iff, DefaultCounts, List.mem_append]
  constructor
  · rintro ⟨-, ⟨k, hk, s, hs, hkind⟩, -⟩
    exact ⟨k, hk, s, .inr hs, hkind⟩
  · rintro ⟨k, hk, s, hs | hs, hkind⟩
    · rw [hnone s hs] at hkind
      cases hkind
    · exact ⟨hnone, ⟨k, hk, s, hs, hkind⟩, r, h⟩

/-- Building and reopening on the way changes the result only where the default body counts. -/
theorem build_reopen_steps_iff {a b : List Step} {r : Request}
    (h : (Draft.steps {} a).build = .ok r) :
    ((r.reopen.steps b).build = (Draft.steps {} (a ++ b)).build ↔ ¬ DefaultCounts a b) ∧
      (DefaultCounts a b → (r.reopen.steps b).build = .error .ambiguousBody) := by
  rcases Draft.reopen_of_build h with ⟨hnone, hreopen⟩ | ⟨⟨k, hk⟩, hreopen⟩
  · rw [gives_none_iff] at hnone
    rw [hreopen, Draft.steps_withText, ← Draft.steps_append, Draft.build_withText]
    cases hbuild : (Draft.steps {} (a ++ b)).build with
    | error e =>
      have hnot : ¬ DefaultCounts a b := fun ⟨_, _, _, hok⟩ => by
        rw [hbuild] at hok
        cases hok
      exact ⟨iff_of_true rfl hnot, fun hcounts => absurd hcounts hnot⟩
    | ok r' =>
      rw [defaultCounts_iff hbuild hnone]
      by_cases hkind : r'.body.kind = .text
      · simp [Except.bind, hkind]
      · simp [Except.bind, hkind]
  · have hnot : ¬ DefaultCounts a b := fun ⟨hnone, _⟩ => by
      rw [← gives_none_iff] at hnone
      rw [hnone k] at hk
      cases hk
    rw [hreopen, Draft.steps_append]
    exact ⟨iff_of_true rfl hnot, fun hcounts => absurd hcounts hnot⟩

/-- An id may be filled in after reopening; bytes may not, though none were given before. -/
theorem reopened_bodiless_post :
    let a : List Step := [.url "http://x/y", .method .post]
    ∃ r, (Draft.steps {} a).build = .ok r ∧
      (r.reopen.steps [.requestId "r-1"]).build =
        (Draft.steps {} (a ++ [.requestId "r-1"])).build ∧
      (r.reopen.steps [.body (.bytes [1])]).build = .error .ambiguousBody := by
  intro a
  have hbuild : (Draft.steps {} a).build = .ok
      { requestId := none, correlationId := none, url := "http://x/y", method := .post,
        headers := .empty, timeout := none, retry := {}, body := .text "",
        addressed := by decide } := rfl
  refine ⟨_, hbuild, ?_, ?_⟩
  · refine (build_reopen_steps_iff hbuild).1.2 fun ⟨_, ⟨k, _, s, hs, hkind⟩, _⟩ => ?_
    obtain rfl := List.mem_singleton.1 hs
    cases hkind
  · refine (build_reopen_steps_iff hbuild).2 ⟨by decide, ⟨.bytes, by decide, ?_⟩, _, rfl⟩
    exact ⟨_, List.mem_singleton_self _, rfl⟩

theorem reopening_refuses_bytes :
    ¬ ∀ (a b : List Step) (r : Request), (Draft.steps {} a).build = .ok r →
      (r.reopen.steps b).build = (Draft.steps {} (a ++ b)).build := by
  intro h
  have hsame := h [.url "http://x/y", .method .post] [.body (.bytes [1])]
    { requestId := none, correlationId := none, url := "http://x/y", method := .post,
      headers := .empty, timeout := none, retry := {}, body := .text "", addressed := by decide } rfl
  cases hsame

end Request

end Courier
