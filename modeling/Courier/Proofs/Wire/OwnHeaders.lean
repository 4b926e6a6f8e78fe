import Courier.Proofs.Http.Headers
import Courier.Wire.Message

/-!
# Own headers on the wire

Under every name a message has the values that its request brings, in their order and with nothing
between them. Credentials and forms put theirs around them without looking at what is there, so a
name that they use comes out with more values than the request has.
-/

namespace Courier

theorem Text.sameName_lower (a b : String) : sameName (lower a) b = sameName a b := by
  have hagain : Char.toLower ∘ Char.toLower = Char.toLower := by
    funext c
    rw [Function.comp_apply]
    unfold Char.toLower
    grind
  rw [sameName, sameName, lower, String.toList_ofList, List.map_map, hagain]

def Headers.allValues (h : Headers) (name : String) : List String :=
  (h.entries.filter fun e => Text.sameName e.1 name).flatMap Prod.snd

namespace Wire

-- ---------------------------------------------------------------------------
-- Lines
-- ---------------------------------------------------------------------------

def lineValues (lines : List HeaderLine) (name : String) : List String :=
  (lines.filter fun line => Text.sameName line.1 name).map Prod.snd

theorem lineValues_append (ls ls' : List HeaderLine) (name : String) :
    lineValues (ls ++ ls') name = lineValues ls name ++ lineValues ls' name := by
  rw [lineValues, List.filter_append, List.map_append, lineValues, lineValues]

theorem lineValues_eq_nil_iff {ls : List HeaderLine} {name : String} :
    lineValues ls name = [] ↔ ¬ ∃ line ∈ ls, Text.sameName line.1 name = true := by
  simp [lineValues]

theorem lineValues_header (header : String) (values : List String) (name : String) :
    lineValues (values.map (Text.lower header, ·)) name =
      if Text.sameName header name then values else [] := by
  by_cases hsame : Text.sameName header name <;>
    simp [lineValues, List.filter_map, Function.comp_def, Text.sameName_lower, hsame]

def linesOfEntries (es : List (String × List String)) : List HeaderLine :=
  es.flatMap fun e => e.2.map (Text.lower e.1, ·)

theorem eq_of_headerLines {header : String} {values : List String} {ls : List HeaderLine}
    (h : headerLines header values = .ok ls) : ls = values.map (Text.lower header, ·) := by
  rw [headerLines] at h
  split at h
  · cases h
  · split at h
    · cases h
    · cases h
      rfl

theorem flatten_of_mapM_headerLines {es : List (String × List String)}
    {lss : List (List HeaderLine)}
    (h : (es.mapM fun (header, values) => headerLines header values) = .ok lss) :
    lss.flatten = linesOfEntries es := by
  induction es generalizing lss with
  | nil =>
    cases h
    rfl
  | cons e es ih =>
    rw [List.mapM_cons] at h
    cases hfirst : headerLines e.1 e.2 with
    | error cause => simp [hfirst, bind, Except.bind] at h
    | ok ls =>
      cases hrest : es.mapM fun (header, values) => headerLines header values with
      | error cause => simp [hfirst, hrest, bind, Except.bind] at h
      | ok rest =>
        simp only [hfirst, hrest, bind, Except.bind, pure, Except.pure, Except.ok.injEq] at h
        rw [← h, List.flatten_cons, eq_of_headerLines hfirst, ih hrest, linesOfEntries,
          linesOfEntries, List.flatMap_cons]

theorem eq_of_linesOf {headers : Headers} {ls : List HeaderLine} (h : linesOf headers = .ok ls) :
    ls = linesOfEntries headers.entries := by
  rw [linesOf] at h
  cases hlines : headers.entries.mapM fun (header, values) => headerLines header values with
  | error cause => simp [hlines, Except.map] at h
  | ok lss =>
    simp only [hlines, Except.map, Except.ok.injEq] at h
    rw [← h, flatten_of_mapM_headerLines hlines]

theorem lineValues_linesOfEntries (es : List (String × List String)) (name : String) :
    lineValues (linesOfEntries es) name =
      (es.filter fun e => Text.sameName e.1 name).flatMap Prod.snd := by
  induction es with
  | nil => rfl
  | cons e es ih =>
    rw [linesOfEntries, List.flatMap_cons, ← linesOfEntries, lineValues_append, lineValues_header,
      ih, List.filter_cons]
    split <;> rfl

-- ---------------------------------------------------------------------------
-- Added lines
-- ---------------------------------------------------------------------------

namespace Message

variable {settings : ClientSettings} {boundary : String} {r : Request} {m : Message}

def addressCredentials? (r : Request) : Option (List Char × Option (List Char)) :=
  (Url.parse? r.url).bind Url.credentials?

def realmCredentials? (settings : ClientSettings) : Option (String × String) :=
  settings.realm.bind Realm.credentials?

def linesBefore (r : Request) : List HeaderLine :=
  (addressCredentials? r).toList.map fun c => basicCredentials c.1 c.2

def linesBehind (settings : ClientSettings) (boundary : String) (r : Request) : List HeaderLine :=
  ((realmCredentials? settings).toList.map fun c => basicCredentials c.1.toList (some c.2.toList)) ++
    (Payload.ofBody boundary r.body).lines

inductive Adds (settings : ClientSettings) (r : Request) (name : String) : Prop where
  | address : (addressCredentials? r).isSome → Text.sameName "authorization" name = true →
    Adds settings r name
  | realm : (realmCredentials? settings).isSome → Text.sameName "authorization" name = true →
    Adds settings r name
  | form : r.body.kind = .parts →
    (Text.sameName "content-type" name = true ∨ Text.sameName "content-length" name = true) →
    Adds settings r name

theorem parse?_of_url? {text : String} {u : Url} (h : url? text = .ok u) :
    Url.parse? text = some u := by
  rw [url?] at h
  split at h
  · cases h
  · next u' hparsed =>
    split at h
    · cases h
      exact hparsed
    · cases h

theorem headers_of_ofRequest (h : ofRequest settings boundary r = .ok m) :
    m.headers = linesBefore r ++ linesOfEntries r.headers.entries ++
      linesBehind settings boundary r := by
  rw [ofRequest] at h
  cases hown : linesOf r.headers with
  | error cause => simp [hown, bind, Except.bind] at h
  | ok own =>
    cases hurl : url? r.url with
    | error cause => simp [hown, hurl, bind, Except.bind] at h
    | ok u =>
      simp only [hown, hurl, bind, Except.bind, pure, Except.pure, Except.ok.injEq] at h
      rw [← h, ← eq_of_linesOf hown, linesBefore, addressCredentials?, parse?_of_url? hurl,
        Option.bind_some, linesBehind, realmCredentials?]
      cases u.credentials? <;> cases settings.realm.bind Realm.credentials? <;> simp

theorem form_lines_iff (boundary : String) (b : Body) (name : String) :
    (∃ line ∈ (Payload.ofBody boundary b).lines, Text.sameName line.1 name = true) ↔
      b.kind = .parts ∧ (Text.sameName "content-type" name = true ∨
        Text.sameName "content-length" name = true) := by
  cases b with
  | text s => by_cases hs : s.isEmpty <;> simp [Payload.ofBody, Payload.lines, Body.kind, hs]
  | bytes b => simp [Payload.ofBody, Payload.lines, Body.kind]
  | parts ps => simp [Payload.ofBody, Payload.lines, Body.kind]

theorem adds_iff (settings : ClientSettings) (boundary : String) (r : Request) (name : String) :
    Adds settings r name ↔
      ∃ line ∈ linesBefore r ++ linesBehind settings boundary r,
        Text.sameName line.1 name = true := by
  simp only [linesBefore, linesBehind, List.mem_append, or_and_right, exists_or, form_lines_iff]
  constructor
  · rintro (⟨hsome, hname⟩ | ⟨hsome, hname⟩ | ⟨hkind, hname⟩)
    · obtain ⟨c, hc⟩ := Option.isSome_iff_exists.1 hsome
      exact .inl ⟨basicCredentials c.1 c.2, by simp [hc], hname⟩
    · obtain ⟨c, hc⟩ := Option.isSome_iff_exists.1 hsome
      exact .inr (.inl ⟨basicCredentials c.1.toList (some c.2.toList), by simp [hc], hname⟩)
    · exact .inr (.inr ⟨hkind, hname⟩)
  · rintro (⟨line, hline, hname⟩ | ⟨line, hline, hname⟩ | ⟨hkind, hname⟩)
    · obtain ⟨c, hc, rfl⟩ := List.mem_map.1 hline
      exact .address (Option.isSome_of_mem (Option.mem_toList.1 hc)) hname
    · obtain ⟨c, hc, rfl⟩ := List.mem_map.1 hline
      exact .realm (Option.isSome_of_mem (Option.mem_toList.1 hc)) hname
    · exact .form hkind hname

theorem values_of_ofRequest (h : ofRequest settings boundary r = .ok m) (name : String) :
    m.values name = lineValues (linesBefore r) name ++ r.headers.allValues name ++
      lineValues (linesBehind settings boundary r) name := by
  show lineValues m.headers name = _
  rw [headers_of_ofRequest h, lineValues_append, lineValues_append, lineValues_linesOfEntries,
    Headers.allValues]

/-- Own values are kept in their order and together, and are all there is under a name exactly if
nothing adds a line with that name. Whether the request has one already does not matter. -/
theorem own_values_unchanged_iff (h : ofRequest settings boundary r = .ok m) (name : String) :
    m.values name = lineValues (linesBefore r) name ++ r.headers.allValues name ++
        lineValues (linesBehind settings boundary r) name ∧
      (m.values name = r.headers.allValues name ↔ ¬ Adds settings r name) := by
  have hvalues := values_of_ofRequest h name
  refine ⟨hvalues, ?_⟩
  have hnone : ¬ Adds settings r name ↔ lineValues (linesBefore r) name = [] ∧
      lineValues (linesBehind settings boundary r) name = [] := by
    rw [adds_iff settings boundary, ← lineValues_eq_nil_iff, lineValues_append,
      List.append_eq_nil_iff]
  rw [hvalues, hnone]
  constructor
  · intro hsame
    -- By length: values around the own ones would make the list longer.
    have hlength := congrArg List.length hsame
    simp only [List.length_append] at hlength
    exact ⟨List.length_eq_zero_iff.1 (by omega), List.length_eq_zero_iff.1 (by omega)⟩
  · rintro ⟨hbefore, hbehind⟩
    rw [hbefore, hbehind, List.nil_append, List.append_nil]

theorem own_values_beside_realm :
    let settings : ClientSettings :=
      { realm := some { principal := some "user", password := some "secret" } }
    let r : Request :=
      { requestId := none, correlationId := none, url := "http://service/", method := .get,
        headers := .ofList [("X-A", ["1"]), ("Authorization", ["Bearer own"]), ("x-a", ["2"])],
        timeout := none, retry := {}, body := .text "", addressed := by decide }
    ∃ m, ofRequest settings "boundary" r = .ok m ∧ m.values "X-a" = ["1", "2"] ∧
      m.values "authorization" ≠ r.headers.allValues "authorization" := by
  intro settings r
  have hmade : (ofRequest settings "boundary" r).isOk = true := by decide +kernel
  cases h : ofRequest settings "boundary" r with
  | error cause =>
    rw [h] at hmade
    cases hmade
  | ok m =>
    refine ⟨m, rfl, ?_, fun hsame => ?_⟩
    · refine (own_values_unchanged_iff h "X-a").2.2 fun hadds => ?_
      rcases hadds with ⟨-, hname⟩ | ⟨-, hname⟩ | ⟨hkind, -⟩
      · exact absurd hname (by decide)
      · exact absurd hname (by decide)
      · cases hkind
    · exact (own_values_unchanged_iff h "authorization").2.1 hsame (.realm rfl (by decide))

/-- What a request has under a name is not always all that its message has. -/
theorem realm_doubles_authorization :
    ¬ ∀ (settings : ClientSettings) (boundary : String) (r : Request) (m : Message) (name : String),
      ofRequest settings boundary r = .ok m → r.headers.mentions name = true →
        m.values name = r.headers.allValues name := by
  intro hkept
  let settings : ClientSettings :=
    { realm := some { principal := some "user", password := some "secret" } }
  let r : Request :=
    { requestId := none, correlationId := none, url := "http://service/", method := .get,
      headers := .ofList [("Authorization", ["Bearer own"])], timeout := none, retry := {},
      body := .text "", addressed := by decide }
  have hvalues : (ofRequest settings "boundary" r).toOption.map (·.values "Authorization") =
      some ["Bearer own", "Basic dXNlcjpzZWNyZXQ="] := by decide +kernel
  cases h : ofRequest settings "boundary" r with
  | error cause =>
    rw [h] at hvalues
    cases hvalues
  | ok m =>
    rw [h] at hvalues
    have hown := hkept settings "boundary" r m "Authorization" h (by decide)
    rw [Except.toOption, Option.map_some, hown] at hvalues
    exact absurd hvalues (by decide)

end Message

end Wire

end Courier
