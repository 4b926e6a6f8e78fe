import Courier.Proofs.Json.Canonical
import Courier.Proofs.Json.Numerals

/-!
# The tokens of a text

The text of a value is cut into the tokens that its brackets, names, strings and numbers were
written as. Every token is read to its end whatever follows it, but for numerals; in the text of
a value, what follows a numeral ends it.
-/

namespace Courier.Json

-- ---------------------------------------------------------------------------
-- Strings
-- ---------------------------------------------------------------------------

namespace Token

theorem scanString_escape (c : Char) (rest : List Char) :
    scanString (Value.escape c ++ rest) = (scanString rest).map (.push c) := by
  unfold Value.escape
  split
  case h_8 hquote hslash _ _ _ _ _ =>
    split
    · next hcontrol =>
      have hunit : ∀ n < 0x20, unit? '0' '0' (Text.hexDigit (n / 16)) (Text.hexDigit (n % 16)) =
          some n ∧ isHigh n = false ∧ isLow n = false := by decide
      obtain ⟨hread, hhigh, hlow⟩ := hunit c.toNat hcontrol
      simp [scanString, hread, hhigh, hlow]
    · next hprintable =>
      rw [List.cons_append, List.nil_append, scanString.eq_def]
      split
      case h_5 heq =>
        obtain ⟨rfl, rfl⟩ := List.cons.inj heq
        exact if_neg (not_or.2 ⟨hprintable, hslash⟩)
      all_goals simp_all
  all_goals rfl

theorem scanString_flatMap (cs rest : List Char) :
    scanString (cs.flatMap Value.escape ++ '"' :: rest) = some (some cs, rest) := by
  induction cs with
  | nil => simp [scanString]
  | cons c cs ih =>
    rw [List.flatMap_cons, List.append_assoc, scanString_escape, ih]
    rfl

theorem next?_string (s : String) (rest : List Char) :
    next? (Value.stringChars s ++ rest) = some (.string (some s), rest) := by
  have hscan := scanString_flatMap s.toList rest
  have htext : Value.stringChars s ++ rest =
      '"' :: (s.toList.flatMap Value.escape ++ '"' :: rest) := by
    simp [Value.stringChars]
  simp [htext, next?, hscan]

theorem next?_numeral {n : Numeral} (h : n.WellFormed) (hrest : Ends rest) :
    next? (n.chars ++ rest) = some (.number n, rest) := by
  have hscan := scanNumeral_append h hrest
  obtain ⟨c, cs, hcs, hc⟩ := h.exists_first
  rw [hcs, List.cons_append] at hscan ⊢
  unfold next?
  split
  case h_11 => rw [hscan]; rfl
  all_goals
    next heq =>
      obtain ⟨rfl, -⟩ := List.cons.inj heq
      exact absurd hc (by decide)

end Token

-- ---------------------------------------------------------------------------
-- Values
-- ---------------------------------------------------------------------------

def Number.token (n : Number) : Token :=
  n.numeral?.elim .null .number

namespace Value

mutual
def tokens : Value → List Token
  | .null => [.null]
  | .bool b => [.bool b]
  | .number n => [n.token]
  | .string s => [.string (some s)]
  | .array items => .openArray :: itemsTokens items ++ [.closeArray]
  | .object members => .openObject :: membersTokens members ++ [.closeObject]

def itemsTokens : List Value → List Token
  | [] => []
  | [v] => v.tokens
  | v :: rest => v.tokens ++ .comma :: itemsTokens rest

def membersTokens : List (String × Value) → List Token
  | [] => []
  | [(name, v)] => .string (some name) :: .colon :: v.tokens
  | (name, v) :: rest =>
    .string (some name) :: .colon :: v.tokens ++ .comma :: membersTokens rest
end

end Value

namespace Token

def Scans (cs : List Char) (ts : List Token) : Prop :=
  ∀ fuel, cs.length ≤ fuel → scanAll fuel cs = some ts

namespace Scans

theorem nil : Scans [] [] := by
  intro fuel _
  cases fuel <;> rfl

theorem append {w : List Char} (hnext : next? (w ++ rest) = some (t, rest))
    (hfirst : w.head?.any (!isSpace ·) = true) (h : Scans rest ts) :
    Scans (w ++ rest) (t :: ts) := by
  intro fuel hfuel
  obtain ⟨c, cs, rfl⟩ : ∃ c cs, w = c :: cs := by
    cases w with
    | nil => cases hfirst
    | cons c cs => exact ⟨c, cs, rfl⟩
  have hblank : isSpace c = false := by simpa using hfirst
  rw [List.cons_append] at hnext hfuel ⊢
  rw [List.length_cons, List.length_append] at hfuel
  obtain ⟨fuel, rfl⟩ : ∃ k, fuel = k + 1 := ⟨fuel - 1, by omega⟩
  have hrest : scanAll fuel rest = some ts := h fuel (by omega)
  simp [scanAll, hblank, hnext, hrest]

theorem symbol (hnext : next? (c :: rest) = some (t, rest)) (hblank : (!isSpace c) = true)
    (h : Scans rest ts) : Scans (c :: rest) (t :: ts) :=
  append (w := [c]) hnext hblank h

theorem string (s : String) (h : Scans rest ts) :
    Scans (Value.stringChars s ++ rest) (.string (some s) :: ts) :=
  append (next?_string s rest) rfl h

theorem named (name : String) (h : Scans rest ts) :
    Scans (Value.stringChars name ++ ':' :: rest) (.string (some name) :: .colon :: ts) :=
  .string name (.symbol rfl rfl h)

theorem number (n : Number) (hrest : Ends rest) (h : Scans rest ts) :
    Scans (n.chars ++ rest) (n.token :: ts) := by
  rcases n.chars_cases with ⟨m, hm, hchars, hnumeral⟩ | ⟨hchars, hnumeral⟩
  · have hfirst : m.chars.head?.any (!isSpace ·) = true := by
      obtain ⟨c, cs, hcs, hc⟩ := hm.exists_first
      have hblank : isSpace c = false := by
        simp only [isSpace, Bool.or_eq_false_iff, decide_eq_false_iff_not]
        refine ⟨⟨⟨?_, ?_⟩, ?_⟩, ?_⟩ <;> (rintro rfl; exact absurd hc (by decide))
      simp [hcs, hblank]
    rw [Number.token, hchars, hnumeral]
    exact append (next?_numeral hm hrest) hfirst h
  · rw [Number.token, hchars, hnumeral]
    exact append rfl rfl h

end Scans

end Token

namespace Value

open Token (Ends Scans)

/-- Whatever ends a numeral may follow the text of the value. -/
def Scannable (v : Value) : Prop :=
  ∀ rest ts, Ends rest → Scans rest ts → Scans (v.chars ++ rest) (v.tokens ++ ts)

theorem ends_symbol (rest : List Char) :
    Ends (',' :: rest) ∧ Ends (']' :: rest) ∧ Ends ('\x7d' :: rest) := by
  refine ⟨?_, ?_, ?_⟩ <;> (rintro c ⟨⟩; decide)

theorem scans_items {items : List Value} (hitems : ∀ v ∈ items, v.Scannable) (hrest : Ends rest)
    (h : Scans rest ts) : Scans (itemsChars items ++ rest) (itemsTokens items ++ ts) := by
  induction items with
  | nil => exact h
  | cons v items ih =>
    have hv : v.Scannable := hitems v List.mem_cons_self
    have hothers := ih fun w hw => hitems w (List.mem_cons_of_mem _ hw)
    cases items with
    | nil => exact hv rest ts hrest h
    | cons w items =>
      have hcomma := Scans.symbol (c := ',') rfl rfl hothers
      simpa [itemsChars, itemsTokens] using hv _ _ (ends_symbol _).1 hcomma

theorem scans_members {members : List Member} (hmembers : ∀ m ∈ members, m.2.Scannable)
    (hrest : Ends rest) (h : Scans rest ts) :
    Scans (membersChars members ++ rest) (membersTokens members ++ ts) := by
  induction members with
  | nil => exact h
  | cons m members ih =>
    obtain ⟨name, v⟩ := m
    have hv : v.Scannable := hmembers (name, v) List.mem_cons_self
    have hothers := ih fun w hw => hmembers w (List.mem_cons_of_mem _ hw)
    cases members with
    | nil => simpa [membersChars, membersTokens] using Scans.named name (hv rest ts hrest h)
    | cons w members =>
      have hcomma := Scans.symbol (c := ',') rfl rfl hothers
      simpa [membersChars, membersTokens] using
        Scans.named name (hv _ _ (ends_symbol _).1 hcomma)

theorem scannable (v : Value) : v.Scannable := by
  induction v using induct with
  | null => exact fun rest ts _ h => .append rfl rfl h
  | bool b => cases b <;> exact fun rest ts _ h => .append rfl rfl h
  | number n => exact fun rest ts hrest h => .number n hrest h
  | string s => exact fun rest ts _ h => .string s h
  | array items ih =>
    intro rest ts _ h
    have hitems := scans_items ih (ends_symbol _).2.1 (.symbol (c := ']') rfl rfl h)
    have harray := Scans.symbol (c := '[') rfl rfl hitems
    simpa [chars, tokens] using harray
  | object members ih =>
    intro rest ts _ h
    have hmembers := scans_members ih (ends_symbol _).2.2 (.symbol (c := '\x7d') rfl rfl h)
    have hobject := Scans.symbol (c := '\x7b') rfl rfl hmembers
    simpa [chars, tokens] using hobject

theorem tokens_of_text (v : Value) : Token.ofText? v.text = some v.tokens := by
  have h : Scans v.chars v.tokens := by
    simpa using v.scannable [] [] (by simp [Ends]) .nil
  rw [Token.ofText?, text, String.toList_ofList]
  exact h _ (Nat.le_refl _)

end Value

-- ---------------------------------------------------------------------------
-- Control characters
-- ---------------------------------------------------------------------------

/-- There is no control character. -/
def Visible (cs : List Char) : Prop :=
  ∀ c ∈ cs, 0x20 ≤ c.toNat

namespace Visible

theorem nil : Visible [] := by
  simp [Visible]

theorem cons (hc : 0x20 ≤ c.toNat) (h : Visible cs) : Visible (c :: cs) :=
  List.forall_mem_cons.2 ⟨hc, h⟩

theorem append (h : Visible as) (h' : Visible bs) : Visible (as ++ bs) :=
  fun c hc => (List.mem_append.1 hc).elim (h c) (h' c)

theorem of_all (h : (cs.all fun c => decide (0x20 ≤ c.toNat)) = true) : Visible cs :=
  fun c hc => of_decide_eq_true (List.all_eq_true.1 h c hc)

theorem digits (h : Digits ds) : Visible ds := by
  intro c hc
  have hdigit := h.2 c hc
  simp only [Decimal.isDigit, Bool.and_eq_true, decide_eq_true_eq] at hdigit
  omega

theorem numeral {n : Numeral} (h : n.WellFormed) : Visible n.chars := by
  have hfraction : Visible (Numeral.fractionChars n.fraction) := by
    cases hn : n.fraction with
    | none => exact .nil
    | some ds => exact .cons (by decide) (.digits (h.fraction ds hn))
  have hexponent : Visible (Numeral.exponentChars n.exponent) := by
    cases hn : n.exponent with
    | none => exact .nil
    | some e =>
      have hdigits := Visible.digits (h.exponent e hn)
      refine .cons (by decide) (.cons ?_ hdigits)
      cases e.1 <;> decide
  refine .append ?_ (.append (.digits h.digits_whole) (.append hfraction hexponent))
  cases n.negative
  · exact .nil
  · exact .cons (by decide) .nil

theorem number (n : Number) : Visible n.chars := by
  rcases n.chars_cases with ⟨m, hm, hchars, -⟩ | ⟨hchars, -⟩
  · exact hchars ▸ numeral hm
  · exact hchars ▸ of_all rfl

theorem escape (c : Char) : Visible (Value.escape c) := by
  unfold Value.escape
  split
  case h_8 =>
    split
    · next hcontrol =>
      have hunit : ∀ n < 0x20, (['\\', 'u', '0', '0', Text.hexDigit (n / 16),
          Text.hexDigit (n % 16)].all fun c => decide (0x20 ≤ c.toNat)) = true := by
        decide
      exact of_all (hunit c.toNat hcontrol)
    · next hvisible => exact .cons (Nat.not_lt.1 hvisible) .nil
  all_goals exact of_all rfl

theorem string (s : String) : Visible (Value.stringChars s) := by
  refine .append (.cons (by decide) ?_) (.cons (by decide) .nil)
  intro c hc
  obtain ⟨d, -, hd⟩ := List.mem_flatMap.1 hc
  exact escape d c hd

theorem items {vs : List Value} (h : ∀ v ∈ vs, Visible v.chars) :
    Visible (Value.itemsChars vs) := by
  induction vs with
  | nil => exact .nil
  | cons v vs ih =>
    have hv := h v List.mem_cons_self
    have hothers := ih fun w hw => h w (List.mem_cons_of_mem _ hw)
    cases vs with
    | nil => exact hv
    | cons w vs => exact .append hv (.cons (by decide) hothers)

theorem members {ms : List Member} (h : ∀ m ∈ ms, Visible m.2.chars) :
    Visible (Value.membersChars ms) := by
  induction ms with
  | nil => exact .nil
  | cons m ms ih =>
    obtain ⟨name, v⟩ := m
    have hv : Visible (Value.stringChars name ++ ':' :: v.chars) :=
      .append (.string name) (.cons (by decide) (h (name, v) List.mem_cons_self))
    have hothers := ih fun w hw => h w (List.mem_cons_of_mem _ hw)
    cases ms with
    | nil => exact hv
    | cons w ms => exact .append hv (.cons (by decide) hothers)

theorem value (v : Value) : Visible v.chars := by
  induction v using Value.induct with
  | null => exact of_all rfl
  | bool b => cases b <;> exact of_all rfl
  | number n => exact .number n
  | string s => exact .string s
  | array items ih => exact .append (.cons (by decide) (.items ih)) (.cons (by decide) .nil)
  | object members ih => exact .append (.cons (by decide) (.members ih)) (.cons (by decide) .nil)

end Visible

end Courier.Json
