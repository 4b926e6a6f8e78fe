import Mathlib.Data.List.Basic
import Courier.Proofs.Http.Headers
import Courier.Proofs.Http.Reopening

/-!
# What the steps of a draft amount to

A request holds the last value that the steps of its draft give for each of its parts. Its headers
are those of the last replacement with the pairs of the header steps that came after it, where a
default one counts only if its name was not there when its turn came. Steps about different parts
may change places.
-/

namespace Courier

-- ---------------------------------------------------------------------------
-- What steps say
-- ---------------------------------------------------------------------------

namespace Step

def url? : Step → Option String
  | .url s => some s
  | _ => none

def method? : Step → Option Method
  | .method m => some m
  | _ => none

def requestId? : Step → Option String
  | .requestId s => some s
  | _ => none

def correlationId? : Step → Option String
  | .correlationId s => some s
  | _ => none

def timeout? : Step → Option UInt64
  | .timeout ms => some ms
  | _ => none

def retry? : Step → Option RetryOverrides
  | .retry o => some o
  | _ => none

def headers? : Step → Option Headers
  | .headers h => some h
  | _ => none

def body? : Step → Option Body
  | .body b => some b
  | _ => none

def last? (said : Step → Option α) (ss : List Step) : Option α :=
  (ss.filterMap said).getLast?

/-- The pairs that header steps add to a map, of which it is known which names are there. -/
def added (present : String → Bool) : List Step → List (String × String)
  | [] => []
  | .header name value :: ss =>
    (name, value) :: added (fun other => present other || Text.sameName name other) ss
  | .defaultHeader name value :: ss =>
    if present name then added present ss
    else (name, value) :: added (fun other => present other || Text.sameName name other) ss
  | _ :: ss => added present ss

/-- The headers that the last replacement puts, none without a replacement, and the steps that come
after it. -/
inductive Since : List Step → Headers → List Step → Prop
  | start : (∀ s ∈ ss, s.headers? = none) → Since ss .empty ss
  | replaced (earlier : List Step) : (∀ s ∈ later, s.headers? = none) →
      Since (earlier ++ .headers h :: later) h later

def Addressed (ss : List Step) : Prop :=
  ∃ url ∈ last? url? ss, Text.allBlank url = false

def NameMethod (ss : List Step) : Prop :=
  ∃ m, .method m ∈ ss

/-- Bodies of different kinds are given, be it that the one takes the other's place. -/
def MixBodies (ss : List Step) : Prop :=
  ∃ b c, .body b ∈ ss ∧ .body c ∈ ss ∧ b.kind ≠ c.kind

inductive Part where
  | url
  | method
  | requestId
  | correlationId
  | headers
  | timeout
  | retry
  | body (kind : BodyKind)
deriving DecidableEq

def part : Step → Part
  | .url _ => .url
  | .method _ => .method
  | .requestId _ => .requestId
  | .correlationId _ => .correlationId
  | .header _ _ | .headers _ | .defaultHeader _ _ => .headers
  | .timeout _ => .timeout
  | .retry _ => .retry
  | .body b => .body b.kind

theorem last?_cons (said : Step → Option α) (s : Step) (ss : List Step) :
    last? said (s :: ss) = (last? said ss).or (said s) := by
  rw [last?, last?, List.filterMap_cons]
  cases hs : said s with
  | none => exact (Option.or_none).symm
  | some a =>
    rw [List.getLast?_cons]
    cases (ss.filterMap said).getLast? <;> rfl

theorem last?_congr {said said' : Step → Option α} (h : ∀ s ∈ ss, said s = said' s) :
    last? said ss = last? said' ss := by
  rw [last?, last?, List.filterMap_congr h]

theorem last?_eq_none_iff {said : Step → Option α} :
    last? said ss = none ↔ ∀ s ∈ ss, said s = none := by
  rw [last?, List.getLast?_eq_none_iff, List.filterMap_eq_nil_iff]

theorem exists_of_last? {said : Step → Option α} (h : last? said ss = some a) :
    ∃ s ∈ ss, said s = some a :=
  List.mem_filterMap.1 (List.mem_of_getLast? h)

theorem body?_eq_some_iff {s : Step} : s.body? = some b ↔ s = .body b := by
  cases s <;> simp [body?]

theorem method?_eq_some_iff {s : Step} : s.method? = some m ↔ s = .method m := by
  cases s <;> simp [method?]

theorem headers?_eq_some_iff {s : Step} : s.headers? = some h ↔ s = .headers h := by
  cases s <;> simp [headers?]

theorem nameMethod_iff : NameMethod ss ↔ last? method? ss ≠ none := by
  rw [ne_eq, last?_eq_none_iff, NameMethod]
  constructor
  · rintro ⟨m, hm⟩ hnone
    cases hnone _ hm
  · intro hsome
    by_contra hnot
    refine hsome fun s hs => Option.eq_none_iff_forall_ne_some.2 fun m hm => ?_
    rw [method?_eq_some_iff] at hm
    exact hnot ⟨m, hm ▸ hs⟩

theorem exists_since (ss : List Step) : ∃ h later, Since ss h later := by
  induction ss with
  | nil => exact ⟨_, _, .start (by simp)⟩
  | cons s ss ih =>
    obtain ⟨h, later, hsince⟩ := ih
    cases hsince with
    | replaced _ hlater => exact ⟨_, _, .replaced (s :: _) hlater⟩
    | start hnone =>
      cases hs : s.headers? with
      | some h =>
        obtain rfl := headers?_eq_some_iff.1 hs
        exact ⟨_, _, .replaced [] hnone⟩
      | none => exact ⟨_, _, .start (List.forall_mem_cons.2 ⟨hs, hnone⟩)⟩

end Step

/-- What the steps say about a request: the last value given for every part, the body that is the
only kind of body given, and the headers gathered since the last replacement. -/
structure Request.Tells (r : Request) (ss : List Step) : Prop where
  url : some r.url = Step.last? Step.url? ss
  method : some r.method = Step.last? Step.method? ss
  requestId : r.requestId = Step.last? Step.requestId? ss
  correlationId : r.correlationId = Step.last? Step.correlationId? ss
  timeout : r.timeout = Step.last? Step.timeout? ss
  retry : r.retry = (Step.last? Step.retry? ss).getD {}
  body : r.body = (Step.last? Step.body? ss).getD (.text "")
  headers : ∃ base later, Step.Since ss base later ∧
    r.headers.Extends base (Step.added base.mentions later)

namespace Draft

variable {d : Draft}

-- ---------------------------------------------------------------------------
-- Parts of a draft
-- ---------------------------------------------------------------------------

structure Overwrites (d : Draft) (s : Step) (d' : Draft) : Prop where
  url : d'.url = s.url?.or d.url
  method : d'.method = s.method?.or d.method
  requestId : d'.requestId = s.requestId?.or d.requestId
  correlationId : d'.correlationId = s.correlationId?.or d.correlationId
  timeout : d'.timeout = s.timeout?.or d.timeout
  retry : some d'.retry = s.retry?.or (some d.retry)

theorem overwrites_step (d : Draft) (s : Step) : d.Overwrites s (d.step s) := by
  cases s with
  | body b => cases b <;> constructor <;> rfl
  | _ => constructor <;> rfl

theorem steps_last {said : Step → Option α} (held : Draft → Option α)
    (h : ∀ d s, held (d.step s) = (said s).or (held d)) (d : Draft) (ss : List Step) :
    held (d.steps ss) = (Step.last? said ss).or (held d) := by
  induction ss generalizing d with
  | nil => rfl
  | cons s ss ih =>
    show held ((d.step s).steps ss) = _
    rw [ih, h, Step.last?_cons, Option.or_assoc]

theorem last_held {said : Step → Option α} (held : Draft → Option α)
    (h : ∀ d s, held (d.step s) = (said s).or (held d)) (hnew : held {} = none) (ss : List Step) :
    held (Draft.steps {} ss) = Step.last? said ss := by
  rw [steps_last held h, hnew, Option.or_none]

theorem url_steps (ss : List Step) : (Draft.steps {} ss).url = Step.last? Step.url? ss :=
  last_held url (fun d s => (overwrites_step d s).url) rfl ss

theorem method_steps (ss : List Step) :
    (Draft.steps {} ss).method = Step.last? Step.method? ss :=
  last_held method (fun d s => (overwrites_step d s).method) rfl ss

theorem headers_steps (h : ∀ s ∈ ss, s.headers? = none) (d : Draft) :
    (d.steps ss).headers = d.headers.appendAll (Step.added d.headers.mentions ss) := by
  induction ss generalizing d with
  | nil => rfl
  | cons s ss ih =>
    rw [List.forall_mem_cons] at h
    show ((d.step s).steps ss).headers = _
    rw [ih h.2]
    cases s with
    | header name value =>
      simp only [step, Step.added, Headers.mentions_append]
      rfl
    | defaultHeader name value =>
      simp only [step, Step.added, Headers.appendDefault]
      split
      · rfl
      · rw [Headers.mentions_append]
        rfl
    | headers h' => cases h.1
    | body b => cases b <;> rfl
    | _ => rfl

theorem headers_gathered (ss : List Step) :
    ∃ base later, Step.Since ss base later ∧
      (Draft.steps {} ss).headers.Extends base (Step.added base.mentions later) := by
  obtain ⟨base, later, hsince⟩ := Step.exists_since ss
  refine ⟨base, later, hsince, ?_⟩
  cases hsince with
  | start hnone =>
    rw [headers_steps hnone]
    exact Headers.extends_appendAll _ _
  | replaced earlier hlater =>
    rw [steps_append]
    show ((((Draft.steps {} earlier).step (.headers base)).steps later).headers).Extends _ _
    rw [headers_steps hlater]
    exact Headers.extends_appendAll _ _

-- ---------------------------------------------------------------------------
-- The body
-- ---------------------------------------------------------------------------

/-- The body given of a kind. -/
def given? (d : Draft) : BodyKind → Option Body
  | .text => d.text.map .text
  | .bytes => d.bytes.map .bytes
  | .parts => d.parts.map .parts

theorem given?_step (d : Draft) (s : Step) (k : BodyKind) :
    (d.step s).given? k = (s.body?.filter (·.kind == k)).or (d.given? k) := by
  cases s with
  | body b => cases b <;> cases k <;> rfl
  | _ => rfl

theorem given?_steps (ss : List Step) (k : BodyKind) :
    (Draft.steps {} ss).given? k = Step.last? (fun s => s.body?.filter (·.kind == k)) ss := by
  refine last_held (·.given? k) (fun d s => given?_step d s k) ?_ ss
  cases k <;> rfl

theorem body?_eq (d : Draft) :
    d.body? = match d.given? .text, d.given? .bytes, d.given? .parts with
      | none, none, none => .ok (.text "")
      | some b, none, none => .ok b
      | none, some b, none => .ok b
      | none, none, some b => .ok b
      | _, _, _ => .error .ambiguousBody := by
  obtain ⟨_, _, _, _, _, _, _, text, bytes, parts⟩ := d
  cases text <;> cases bytes <;> cases parts <;> rfl

theorem body?_of_none (h : ∀ k, d.given? k = none) : d.body? = .ok (.text "") := by
  simp only [body?_eq, h]

theorem body?_of_one (h : d.given? b.kind = some b) (hothers : ∀ k ≠ b.kind, d.given? k = none) :
    d.body? = .ok b := by
  rw [body?_eq]
  cases hkind : b.kind with
  | text =>
    rw [hkind] at h hothers
    simp only [h, hothers .bytes (by decide), hothers .parts (by decide)]
  | bytes =>
    rw [hkind] at h hothers
    simp only [h, hothers .text (by decide), hothers .parts (by decide)]
  | parts =>
    rw [hkind] at h hothers
    simp only [h, hothers .text (by decide), hothers .bytes (by decide)]

theorem body?_of_two (hb : d.given? j = some b) (hc : d.given? k = some c) (hne : j ≠ k) :
    d.body? = .error .ambiguousBody := by
  rw [body?_eq]
  cases j <;> cases k
  case text.bytes | bytes.text => simp only [hb, hc]
  case text.parts | parts.text =>
    simp only [hb, hc]
    cases d.given? .bytes <;> rfl
  case bytes.parts | parts.bytes =>
    simp only [hb, hc]
    cases d.given? .text <;> rfl
  all_goals exact absurd rfl hne

theorem body?_of_mixed (h : Step.MixBodies ss) :
    (Draft.steps {} ss).body? = .error .ambiguousBody := by
  obtain ⟨b, c, hb, hc, hne⟩ := h
  have hgiven : ∀ b, .body b ∈ ss → ∃ b', (Draft.steps {} ss).given? b.kind = some b' := by
    intro b hb
    rw [← Option.ne_none_iff_exists', given?_steps, ne_eq, Step.last?_eq_none_iff]
    intro hnone
    simpa [Step.body?] using hnone _ hb
  obtain ⟨b', hb'⟩ := hgiven b hb
  obtain ⟨c', hc'⟩ := hgiven c hc
  exact body?_of_two hb' hc' hne

theorem body?_of_not_mixed (h : ¬ Step.MixBodies ss) :
    (Draft.steps {} ss).body? = .ok ((Step.last? Step.body? ss).getD (.text "")) := by
  cases hlast : Step.last? Step.body? ss with
  | none =>
    refine body?_of_none fun k => ?_
    rw [given?_steps, Step.last?_eq_none_iff]
    intro s hs
    rw [Step.last?_eq_none_iff.1 hlast s hs]
    rfl
  | some b =>
    obtain ⟨s, hs, hsb⟩ := Step.exists_of_last? hlast
    obtain rfl := Step.body?_eq_some_iff.1 hsb
    -- All the bodies given are of the last one's kind.
    have hkind : ∀ s ∈ ss, ∀ c ∈ s.body?, c.kind = b.kind := by
      intro s hsc c hc
      by_contra hne
      obtain rfl := Step.body?_eq_some_iff.1 hc
      exact h ⟨c, b, hsc, hs, hne⟩
    refine body?_of_one ?_ fun k hk => ?_
    · have hall : ∀ s ∈ ss, s.body?.filter (·.kind == b.kind) = s.body? := by
        intro s hs
        cases hc : s.body? with
        | none => rfl
        | some c => simp [hkind s hs c hc]
      exact (given?_steps ss b.kind).trans ((Step.last?_congr hall).trans hlast)
    · rw [given?_steps, Step.last?_eq_none_iff]
      intro s hs
      refine Option.filter_eq_none_iff.2 fun c hc => ?_
      rw [hkind s hs c hc, beq_iff_eq]
      exact hk.symm

-- ---------------------------------------------------------------------------
-- Building
-- ---------------------------------------------------------------------------

variable {url : String} {method : Method}

theorem url_setBody (d : Draft) (b : Body) : (d.setBody b).url = d.url := by
  cases b <;> rfl

theorem method_setBody (d : Draft) (b : Body) : (d.setBody b).method = d.method := by
  cases b <;> rfl

theorem build_of_unaddressed (h : ∀ url ∈ d.url, Text.allBlank url = true) :
    d.build = .error (.missing "url") := by
  rw [build]
  split
  · rfl
  · next url hurl => rw [dif_pos (h url hurl)]

theorem build_of_methodless (hurl : d.url = some url) (haddressed : Text.allBlank url = false)
    (hmethod : d.method = none) : d.build = .error (.missing "method") := by
  simp [build, hurl, haddressed, hmethod]

theorem build_of_described (hurl : d.url = some url) (haddressed : Text.allBlank url = false)
    (hmethod : d.method = some method) :
    d.build = d.body?.map (d.requestOf url method haddressed) := by
  simp [build, hurl, haddressed, hmethod]
  rfl

theorem tells_requestOf (hurl : Step.last? Step.url? ss = some url)
    (haddressed : Text.allBlank url = false) (hmethod : Step.last? Step.method? ss = some method) :
    ((Draft.steps {} ss).requestOf url method haddressed
      ((Step.last? Step.body? ss).getD (.text ""))).Tells ss where
  url := hurl.symm
  method := hmethod.symm
  requestId := last_held requestId (fun d s => (overwrites_step d s).requestId) rfl ss
  correlationId :=
    last_held correlationId (fun d s => (overwrites_step d s).correlationId) rfl ss
  timeout := last_held timeout (fun d s => (overwrites_step d s).timeout) rfl ss
  retry := by
    have hlast := steps_last (some ∘ retry) (fun d s => (overwrites_step d s).retry) {} ss
    rw [← Option.some_inj]
    exact hlast.trans (by cases Step.last? Step.retry? ss <;> rfl)
  body := rfl
  headers := headers_gathered ss

theorem build_steps_unaddressed (h : ¬ Step.Addressed ss) :
    (Draft.steps {} ss).build = .error (.missing "url") := by
  refine build_of_unaddressed fun url hurl => ?_
  rw [Option.mem_def, url_steps] at hurl
  by_contra hblank
  exact h ⟨url, hurl, Bool.eq_false_iff.2 hblank⟩

theorem build_steps_methodless (h : Step.Addressed ss) (hmethod : ¬ Step.NameMethod ss) :
    (Draft.steps {} ss).build = .error (.missing "method") := by
  obtain ⟨url, hurl, haddressed⟩ := h
  rw [Step.nameMethod_iff, not_not] at hmethod
  exact build_of_methodless ((url_steps ss).trans hurl) haddressed ((method_steps ss).trans hmethod)

theorem build_steps_described (h : Step.Addressed ss) (hmethod : Step.NameMethod ss) :
    ∃ url method addressed, Step.last? Step.url? ss = some url ∧
      Step.last? Step.method? ss = some method ∧
      (Draft.steps {} ss).build =
        (Draft.steps {} ss).body?.map ((Draft.steps {} ss).requestOf url method addressed) := by
  obtain ⟨url, hurl, haddressed⟩ := h
  rw [Step.nameMethod_iff, Option.ne_none_iff_exists'] at hmethod
  obtain ⟨method, hmethod⟩ := hmethod
  exact ⟨url, method, haddressed, hurl, hmethod,
    build_of_described ((url_steps ss).trans hurl) haddressed ((method_steps ss).trans hmethod)⟩

-- ---------------------------------------------------------------------------
-- The order of steps
-- ---------------------------------------------------------------------------

theorem step_setBody {s : Step} (h : s.body? = none) (d : Draft) (b : Body) :
    (d.setBody b).step s = (d.step s).setBody b := by
  cases s with
  | body c => cases h
  | _ => cases b <;> rfl

theorem step_comm {s t : Step} (h : s.part ≠ t.part) (d : Draft) :
    (d.step s).step t = (d.step t).step s := by
  cases s with
  | body b =>
    cases t with
    | body c => cases b <;> cases c <;> first | rfl | exact absurd rfl h
    | _ => exact step_setBody rfl d b
  | _ =>
    cases t with
    | body c => exact (step_setBody rfl d c).symm
    | _ => first | rfl | exact absurd rfl h

theorem steps_step {s : Step} (h : ∀ t ∈ ss, s.part ≠ t.part) (d : Draft) :
    (d.step s).steps ss = (d.steps ss).step s := by
  induction ss generalizing d with
  | nil => rfl
  | cons t ss ih =>
    rw [List.forall_mem_cons] at h
    show ((d.step s).step t).steps ss = ((d.step t).steps ss).step s
    rw [step_comm h.1, ih h.2]

theorem steps_swap {s t : Step} {between : List Step} (h : s.part ≠ t.part)
    (hbetween : ∀ u ∈ between, s.part ≠ u.part ∧ t.part ≠ u.part) (d : Draft)
    (before after : List Step) :
    d.steps (before ++ s :: between ++ t :: after) =
      d.steps (before ++ t :: between ++ s :: after) := by
  have hs : ∀ u ∈ between, s.part ≠ u.part := fun u hu => (hbetween u hu).1
  have ht : ∀ u ∈ between, t.part ≠ u.part := fun u hu => (hbetween u hu).2
  simp only [steps_append]
  show (((((d.steps before).step s).steps between).step t).steps after) =
    (((((d.steps before).step t).steps between).step s).steps after)
  rw [steps_step hs, steps_step ht, step_comm h]

/-- What is missing or given twice is reported in this order: address, method, body. Without such
a fault the request holds what the steps say, and steps about different parts may change places. -/
theorem build_tells_steps :
    (∀ ss : List Step,
      ((Draft.steps {} ss).build = .error (.missing "url") ↔ ¬ Step.Addressed ss) ∧
      ((Draft.steps {} ss).build = .error (.missing "method") ↔
        Step.Addressed ss ∧ ¬ Step.NameMethod ss) ∧
      ((Draft.steps {} ss).build = .error .ambiguousBody ↔
        Step.Addressed ss ∧ Step.NameMethod ss ∧ Step.MixBodies ss) ∧
      (Step.Addressed ss → Step.NameMethod ss → ¬ Step.MixBodies ss →
        ∃ r, (Draft.steps {} ss).build = .ok r ∧ r.Tells ss)) ∧
    ∀ (s t : Step) (before between after : List Step), s.part ≠ t.part →
      (∀ u ∈ between, s.part ≠ u.part ∧ t.part ≠ u.part) →
      (Draft.steps {} (before ++ s :: between ++ t :: after)).build =
        (Draft.steps {} (before ++ t :: between ++ s :: after)).build := by
  refine ⟨fun ss => ?_, fun s t before between after hpart hbetween => ?_⟩
  · by_cases haddressed : Step.Addressed ss
    · by_cases hmethod : Step.NameMethod ss
      · obtain ⟨url, method, addressed, hurl, hlast, hbuild⟩ :=
          build_steps_described haddressed hmethod
        by_cases hmixed : Step.MixBodies ss
        · rw [body?_of_mixed hmixed] at hbuild
          simp [hbuild, Except.map, haddressed, hmethod, hmixed]
        · rw [body?_of_not_mixed hmixed] at hbuild
          simp only [hbuild, Except.map, haddressed, hmethod, hmixed]
          simpa using tells_requestOf hurl addressed hlast
      · simp [build_steps_methodless haddressed hmethod, haddressed, hmethod]
    · simp [build_steps_unaddressed haddressed, haddressed]
  · rw [steps_swap hpart hbetween]

/-- A blank address, one method and one text are superseded; a default header finds its name there
in another letter case. -/
theorem build_tells_superseded_steps :
    let ss : List Step :=
      [.url " ", .method .get, .header "A" "lost", .headers ⟨[("Accept", ["*/*"])], by decide⟩,
        .body (.text "a"), .header "X" "1", .defaultHeader "x" "2", .header "x" "3",
        .header "X" "4", .url "http://x/y", .method .post, .body (.text "b")]
    (Step.Addressed ss ∧ Step.NameMethod ss ∧ ¬ Step.MixBodies ss) ∧
      (∃ r, (Draft.steps {} ss).build = .ok r ∧ r.Tells ss ∧ r.body = .text "b" ∧
        r.headers.entries = [("Accept", ["*/*"]), ("X", ["1", "4"]), ("x", ["3"])]) ∧
      (Draft.steps {} (ss ++ .timeout 1 :: [] ++ .header "X" "5" :: [])).build =
        (Draft.steps {} (ss ++ .header "X" "5" :: [] ++ .timeout 1 :: [])).build := by
  intro ss
  have haddressed : Step.Addressed ss := ⟨"http://x/y", rfl, by decide⟩
  have hmethod : Step.NameMethod ss := ⟨.post, by simp [ss]⟩
  have hmixed : ¬ Step.MixBodies ss := by
    rintro ⟨b, c, hb, hc, hne⟩
    simp only [ss, List.mem_cons, List.not_mem_nil, reduceCtorEq, Step.body.injEq, false_or,
      or_false] at hb hc
    rcases hb with rfl | rfl <;> rcases hc with rfl | rfl <;> exact hne rfl
  obtain ⟨r, hbuild, htells⟩ := (build_tells_steps.1 ss).2.2.2 haddressed hmethod hmixed
  refine ⟨⟨haddressed, hmethod, hmixed⟩, ⟨r, hbuild, htells, ?_⟩, ?_⟩
  · obtain ⟨-, -, hbody, -, -, hheaders, -⟩ := build_eq_ok hbuild
    rw [← hheaders]
    exact ⟨(Except.ok.inj hbody).symm, by decide +kernel⟩
  · exact build_tells_steps.2 _ _ _ _ _ (by decide) (by simp)

end Draft

end Courier
