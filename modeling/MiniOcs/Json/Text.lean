import Mathlib.Data.Rat.Defs
import MiniOcs.Json.Value

/-!
# JSON texts

Compact texts and a parser for them. `ascii` is the choice of a writer that escapes everything
outside printable ASCII.
-/
namespace Json

/-! ## Strings -/

def hexDigit (n : Nat) : Char := if n < 10 then Char.ofNat (48 + n) else Char.ofNat (87 + n)

def hexValue (c : Char) : Option Nat :=
  if '0' ≤ c ∧ c ≤ '9' then some (c.toNat - 48)
  else if 'a' ≤ c ∧ c ≤ 'f' then some (c.toNat - 87)
  else if 'A' ≤ c ∧ c ≤ 'F' then some (c.toNat - 55)
  else none

/-- Four hexadecimal digits. -/
def hex4 (n : Nat) : List Char :=
  [hexDigit (n / 4096 % 16), hexDigit (n / 256 % 16), hexDigit (n / 16 % 16), hexDigit (n % 16)]

/-- The UTF-16 code units of an escaped character. -/
def units (n : Nat) : List Nat :=
  if n < 0x10000 then [n]
  else [0xD800 + (n - 0x10000) / 0x400, 0xDC00 + (n - 0x10000) % 0x400]

def unicodeEscape (n : Nat) : List Char :=
  (units n).flatMap fun unit => '\x5c' :: 'u' :: hex4 unit

/-- The letter of a short escape. -/
def shortEscape (c : Char) : Option Char :=
  if c = '\x22' then some '\x22'
  else if c = '\x5c' then some '\x5c'
  else if c.toNat = 8 then some 'b'
  else if c.toNat = 9 then some 't'
  else if c.toNat = 10 then some 'n'
  else if c.toNat = 12 then some 'f'
  else if c.toNat = 13 then some 'r'
  else none

def escapeChar (ascii : Bool) (c : Char) : List Char :=
  match shortEscape c with
  | some letter => ['\x5c', letter]
  | none =>
      if c.toNat < 32 ∨ (ascii = true ∧ 127 ≤ c.toNat) then unicodeEscape c.toNat else [c]

def renderString (ascii : Bool) (s : String) : List Char :=
  '\x22' :: s.toList.flatMap (escapeChar ascii) ++ ['\x22']

/-- The code unit of a short escape. -/
def shortValue (letter : Char) : Option Nat :=
  if letter = '\x22' then some 34
  else if letter = '\x5c' then some 92
  else if letter = '/' then some 47
  else if letter = 'b' then some 8
  else if letter = 't' then some 9
  else if letter = 'n' then some 10
  else if letter = 'f' then some 12
  else if letter = 'r' then some 13
  else none

/-- The code units up to the closing quote, and what follows it. -/
def scanString : List Char → Option (List Nat × List Char)
  | [] => none
  | c :: rest =>
      if c = '\x22' then some ([], rest)
      else if c = '\x5c' then
        match rest with
        | [] => none
        | letter :: rest =>
            if letter = 'u' then
              match rest with
              | a :: b :: c :: d :: rest => do
                  let unit := (← hexValue a) * 4096 + (← hexValue b) * 256 + (← hexValue c) * 16 +
                    (← hexValue d)
                  let (units, rest) ← scanString rest
                  return (unit :: units, rest)
              | _ => none
            else do
              let unit ← shortValue letter
              let (units, rest) ← scanString rest
              return (unit :: units, rest)
      else if c.toNat < 32 then none
      else do
        let (units, rest) ← scanString rest
        return (c.toNat :: units, rest)

/-- Surrogates come in pairs. -/
def joinUnits : List Nat → Option (List Char)
  | [] => some []
  | high :: rest =>
      if 0xD800 ≤ high ∧ high < 0xDC00 then
        match rest with
        | low :: rest =>
            if 0xDC00 ≤ low ∧ low < 0xE000 then do
              let chars ← joinUnits rest
              return Char.ofNat (0x10000 + (high - 0xD800) * 0x400 + (low - 0xDC00)) :: chars
            else none
        | [] => none
      else if 0xDC00 ≤ high ∧ high < 0xE000 then none
      else do
        let chars ← joinUnits rest
        return Char.ofNat high :: chars

def parseString (text : List Char) : Option (String × List Char) := do
  let (units, rest) ← scanString text
  let chars ← joinUnits units
  return (String.ofList chars, rest)

/-! ## Strings come back -/

theorem hexValue_hexDigit : ∀ n < 16, hexValue (hexDigit n) = some n := by decide

theorem hexDigit_lt (n : Nat) : hexValue (hexDigit (n % 16)) = some (n % 16) :=
  hexValue_hexDigit _ (Nat.mod_lt _ (by decide))

theorem scanString_unit {unit : Nat} (h : unit < 0x10000) (rest : List Char) :
    scanString ('\x5c' :: 'u' :: hex4 unit ++ rest) =
      (scanString rest).map fun r => (unit :: r.1, r.2) := by
  have hsum : unit / 4096 % 16 * 4096 + unit / 256 % 16 * 256 + unit / 16 % 16 * 16 + unit % 16 =
      unit := by omega
  simp only [hex4, List.cons_append, List.nil_append]
  rw [scanString]
  simp only [Char.reduceEq, ↓reduceIte, hexDigit_lt, Option.bind_eq_bind, Option.bind_some, hsum]
  cases scanString rest <;> rfl

/-- The code units that one written character gives. -/
def charUnits (ascii : Bool) (c : Char) : List Nat :=
  match shortEscape c with
  | some _ => [c.toNat]
  | none => if c.toNat < 32 ∨ (ascii = true ∧ 127 ≤ c.toNat) then units c.toNat else [c.toNat]

theorem toNat_valid (c : Char) : c.toNat < 0xD800 ∨ (0xDFFF < c.toNat ∧ c.toNat < 0x110000) :=
  c.valid

theorem units_lt {n : Nat} (h : n < 0x110000) : ∀ unit ∈ units n, unit < 0x10000 := by
  unfold units
  split_ifs with hn
  · simpa using hn
  · simp only [List.mem_cons, List.not_mem_nil, or_false, forall_eq_or_imp, forall_eq]
    omega

theorem scanString_units (us : List Nat) (h : ∀ unit ∈ us, unit < 0x10000) (rest : List Char) :
    scanString ((us.flatMap fun unit => '\x5c' :: 'u' :: hex4 unit) ++ rest) =
      (scanString rest).map fun r => (us ++ r.1, r.2) := by
  induction us with
  | nil => simp
  | cons unit us ih =>
      rw [List.flatMap_cons, List.append_assoc, scanString_unit (h unit (by simp)),
        ih fun u hu => h u (by simp [hu])]
      cases scanString rest <;> rfl

theorem shortValue_shortEscape {c letter : Char} (h : shortEscape c = some letter) :
    letter ≠ 'u' ∧ shortValue letter = some c.toNat := by
  unfold shortEscape at h
  split_ifs at h with h1 h2 h3 h4 h5 h6 h7
  · cases h
    subst h1
    decide
  · cases h
    subst h2
    decide
  all_goals cases h
  · rw [h3]
    decide
  · rw [h4]
    decide
  · rw [h5]
    decide
  · rw [h6]
    decide
  · rw [h7]
    decide

theorem scanString_escapeChar (ascii : Bool) (c : Char) (rest : List Char) :
    scanString (escapeChar ascii c ++ rest) =
      (scanString rest).map fun r => (charUnits ascii c ++ r.1, r.2) := by
  unfold escapeChar charUnits
  cases hshort : shortEscape c with
  | some letter =>
      obtain ⟨hu, hvalue⟩ := shortValue_shortEscape hshort
      simp only [List.cons_append, List.nil_append]
      rw [scanString.eq_def]
      simp only [Char.reduceEq, ↓reduceIte, if_neg hu, hvalue, Option.bind_eq_bind,
        Option.bind_some]
      cases scanString rest <;> rfl
  | none =>
      dsimp only
      split_ifs with hescape
      · have hlt : c.toNat < 0x110000 := by
          have := toNat_valid c
          omega
        exact scanString_units _ (units_lt hlt) rest
      · have hquote : c ≠ '\x22' := by
          rintro rfl
          simp [shortEscape] at hshort
        have hslash : c ≠ '\x5c' := by
          rintro rfl
          simp [shortEscape] at hshort
        simp only [List.cons_append, List.nil_append]
        rw [scanString.eq_def]
        dsimp only
        rw [if_neg hquote, if_neg hslash, if_neg (by omega)]
        cases scanString rest <;> rfl

theorem scanString_escaped (ascii : Bool) (chars rest : List Char) :
    scanString (chars.flatMap (escapeChar ascii) ++ '\x22' :: rest) =
      some (chars.flatMap (charUnits ascii), rest) := by
  induction chars with
  | nil =>
      show scanString ('\x22' :: rest) = _
      rw [scanString.eq_def]
      rfl
  | cons c chars ih =>
      rw [List.flatMap_cons, List.append_assoc, scanString_escapeChar, ih]
      rfl

theorem joinUnits_single {n : Nat} (h : n < 0xD800 ∨ 0xDFFF < n) (us : List Nat) :
    joinUnits (n :: us) = (joinUnits us).map (Char.ofNat n :: ·) := by
  rw [joinUnits.eq_def]
  dsimp only
  rw [if_neg (by omega), if_neg (by omega)]
  cases joinUnits us <;> rfl

theorem joinUnits_units {n : Nat} (h : n < 0xD800 ∨ (0xDFFF < n ∧ n < 0x110000)) (us : List Nat) :
    joinUnits (units n ++ us) = (joinUnits us).map (Char.ofNat n :: ·) := by
  unfold units
  split_ifs with hn
  · exact joinUnits_single (by omega) us
  · have hsum : 0x10000 + (0xD800 + (n - 0x10000) / 0x400 - 0xD800) * 0x400 +
        (0xDC00 + (n - 0x10000) % 0x400 - 0xDC00) = n := by omega
    simp only [List.cons_append, List.nil_append]
    rw [joinUnits.eq_def]
    dsimp only
    rw [if_pos (by omega), if_pos (by omega), hsum]
    cases joinUnits us <;> rfl

theorem joinUnits_charUnits (ascii : Bool) (c : Char) (us : List Nat) :
    joinUnits (charUnits ascii c ++ us) = (joinUnits us).map (c :: ·) := by
  have hvalid := toNat_valid c
  have hc : Char.ofNat c.toNat = c := Char.ofNat_toNat c
  unfold charUnits
  cases shortEscape c with
  | some letter =>
      rw [List.singleton_append, joinUnits_single (by omega), hc]
  | none =>
      dsimp only
      split_ifs
      · rw [joinUnits_units hvalid, hc]
      · rw [List.singleton_append, joinUnits_single (by omega), hc]

theorem joinUnits_chars (ascii : Bool) (chars : List Char) :
    joinUnits (chars.flatMap (charUnits ascii)) = some chars := by
  induction chars with
  | nil => rfl
  | cons c chars ih =>
      rw [List.flatMap_cons, joinUnits_charUnits, ih]
      rfl

/-- A written string is read back, whatever follows its closing quote. -/
theorem parseString_render (ascii : Bool) (s : String) (rest : List Char) :
    parseString (s.toList.flatMap (escapeChar ascii) ++ '\x22' :: rest) = some (s, rest) := by
  unfold parseString
  rw [scanString_escaped]
  simp only [Option.bind_eq_bind, Option.bind_some, joinUnits_chars, String.ofList_toList]
  rfl

/-! ## Numbers -/

def renderInt (n : Int) : List Char :=
  if n < 0 then '-' :: Nat.toDigits 10 n.natAbs else Nat.toDigits 10 n.natAbs

/-- The digits at the head of a text. -/
def spanDigits : List Char → List Char × List Char
  | [] => ([], [])
  | c :: rest => if c.isDigit then (c :: (spanDigits rest).1, (spanDigits rest).2) else ([], c :: rest)

/-- A number without a sign; a leading zero stands alone. -/
def parseDigits (text : List Char) : Option (Nat × List Char) :=
  match spanDigits text with
  | ([], _) => none
  | ('0' :: _ :: _, _) => none
  | (digits, rest) => some (Nat.ofDigitChars 10 digits 0, rest)

/-- A number with or without a fraction. Only zero fractions and no exponents are read. -/
def parseUnsigned (text : List Char) (sign : Int) : Option (Json × List Char) := do
  let (n, rest) ← parseDigits text
  match rest with
  | '.' :: rest =>
      let (fraction, rest) := spanDigits rest
      if fraction ≠ [] ∧ fraction.all (· = '0') then
        return (.real ((sign * n : Int) : Rat), rest) else none
  | rest => return (.int (sign * n), rest)

def parseNumber : List Char → Option (Json × List Char)
  | '-' :: rest => parseUnsigned rest (-1)
  | text => parseUnsigned text 1

/-- What may stand behind a number: the text goes on with neither a digit nor a fraction. -/
def Ends (rest : List Char) : Prop :=
  ∀ c tail, rest = c :: tail → c.isDigit = false ∧ c ≠ '.'

theorem spanDigits_append {digits : List Char} (hdigits : ∀ c ∈ digits, c.isDigit = true)
    {rest : List Char} (hrest : ∀ c tail, rest = c :: tail → c.isDigit = false) :
    spanDigits (digits ++ rest) = (digits, rest) := by
  induction digits with
  | nil =>
      cases rest with
      | nil => rfl
      | cons c tail => simp [spanDigits, hrest c tail rfl]
  | cons c digits ih =>
      have hc := hdigits c (by simp)
      simp [spanDigits, hc, ih fun d hd => hdigits d (by simp [hd])]

theorem isDigit_toDigits (n : Nat) : ∀ c ∈ Nat.toDigits 10 n, c.isDigit = true :=
  fun _ hc => Nat.isDigit_of_mem_toDigits (by decide) (by decide) hc

/-- Only zero is written with a zero in front. -/
theorem toDigits_head {n : Nat} {tail : List Char} (h : Nat.toDigits 10 n = '0' :: tail) :
    tail = [] := by
  induction n using Nat.strongRecOn generalizing tail with
  | _ n ih =>
      rw [Nat.toDigits_eq_if (by decide)] at h
      split_ifs at h with hlt
      · exact (List.cons.inj h).2.symm
      · cases hhigh : Nat.toDigits 10 (n / 10) with
        | nil => exact absurd hhigh Nat.toDigits_ne_nil
        | cons c rest =>
            rw [hhigh] at h
            cases h
            have hrest := ih (n / 10) (by omega) hhigh
            -- a single leading digit of a number above nine is not zero
            have hpos : 0 < n / 10 := by omega
            have hvalue : Nat.ofDigitChars 10 (Nat.toDigits 10 (n / 10)) 0 = n / 10 :=
              Nat.ofDigitChars_ten_toDigits
            rw [hhigh, hrest] at hvalue
            simp [Nat.ofDigitChars] at hvalue
            omega

theorem parseDigits_toDigits (n : Nat) {rest : List Char}
    (hrest : ∀ c tail, rest = c :: tail → c.isDigit = false) :
    parseDigits (Nat.toDigits 10 n ++ rest) = some (n, rest) := by
  unfold parseDigits
  rw [spanDigits_append (isDigit_toDigits n) hrest]
  split
  · rename_i heq
    exact absurd (congrArg Prod.fst heq) Nat.toDigits_ne_nil
  · rename_i heq
    have hhead := toDigits_head (congrArg Prod.fst heq)
    cases hhead
  · rename_i heq
    cases heq
    rw [Nat.ofDigitChars_ten_toDigits]

theorem parseUnsigned_int (n : Nat) (sign : Int) {rest : List Char} (hrest : Ends rest) :
    parseUnsigned (Nat.toDigits 10 n ++ rest) sign = some (.int (sign * n), rest) := by
  unfold parseUnsigned
  rw [parseDigits_toDigits n fun c tail h => (hrest c tail h).1]
  simp only [Option.bind_eq_bind, Option.bind_some]
  split
  · rename_i tail
    exact absurd rfl (hrest '.' tail rfl).2
  · rfl

theorem parseUnsigned_real (n : Nat) (sign : Int) {rest : List Char} (hrest : Ends rest) :
    parseUnsigned (Nat.toDigits 10 n ++ ('.' :: '0' :: rest)) sign =
      some (.real ((sign * n : Int) : Rat), rest) := by
  have hzero : spanDigits (['0'] ++ rest) = (['0'], rest) :=
    spanDigits_append (by simp) fun c tail h => (hrest c tail h).1
  rw [List.singleton_append] at hzero
  unfold parseUnsigned
  rw [parseDigits_toDigits n (by rintro c tail h; cases h; decide)]
  simp only [Option.bind_eq_bind, Option.bind_some, hzero]
  rfl

/-- The first character of a number. -/
theorem toDigits_cons (n : Nat) : ∃ c rest, Nat.toDigits 10 n = c :: rest ∧ c.isDigit = true := by
  cases h : Nat.toDigits 10 n with
  | nil => exact absurd h Nat.toDigits_ne_nil
  | cons c rest => exact ⟨c, rest, rfl, isDigit_toDigits n c (by simp [h])⟩

theorem parseNumber_digits (n : Nat) (rest : List Char) :
    parseNumber (Nat.toDigits 10 n ++ rest) = parseUnsigned (Nat.toDigits 10 n ++ rest) 1 := by
  obtain ⟨c, tail, hdigits, hc⟩ := toDigits_cons n
  rw [hdigits]
  unfold parseNumber
  split
  · rename_i heq
    cases heq
    cases hc
  · rfl

theorem parseNumber_int (n : Int) {rest : List Char} (hrest : Ends rest) :
    parseNumber (renderInt n ++ rest) = some (.int n, rest) := by
  unfold renderInt
  split_ifs with hn
  · show parseUnsigned (Nat.toDigits 10 n.natAbs ++ rest) (-1) = _
    rw [parseUnsigned_int _ _ hrest]
    congr 3
    omega
  · rw [parseNumber_digits, parseUnsigned_int _ _ hrest]
    congr 3
    omega

theorem parseNumber_real (n : Int) {rest : List Char} (hrest : Ends rest) :
    parseNumber (renderInt n ++ ('.' :: '0' :: rest)) = some (.real (n : Rat), rest) := by
  unfold renderInt
  split_ifs with hn
  · show parseUnsigned (Nat.toDigits 10 n.natAbs ++ ('.' :: '0' :: rest)) (-1) = _
    rw [parseUnsigned_real _ _ hrest, show (-1 : Int) * n.natAbs = n by omega]
  · rw [parseNumber_digits, parseUnsigned_real _ _ hrest, show (1 : Int) * n.natAbs = n by omega]

/-! ## Values -/

mutual

def render (ascii : Bool) : Json → List Char
  | .null => ['n', 'u', 'l', 'l']
  | .bool true => ['t', 'r', 'u', 'e']
  | .bool false => ['f', 'a', 'l', 's', 'e']
  | .int n => renderInt n
  | .real q => renderInt (q.num.tdiv q.den) ++ ['.', '0']
  | .str s => renderString ascii s
  | .arr [] => ['[', ']']
  | .arr (item :: rest) => '[' :: render ascii item ++ renderItems ascii rest
  | .obj [] => ['\x7b', '\x7d']
  | .obj ((key, value) :: rest) =>
      '\x7b' :: renderString ascii key ++ ':' :: render ascii value ++ renderMembers ascii rest

/-- The items behind the first one, and the closing bracket. -/
def renderItems (ascii : Bool) : List Json → List Char
  | [] => [']']
  | item :: rest => ',' :: render ascii item ++ renderItems ascii rest

def renderMembers (ascii : Bool) : List (String × Json) → List Char
  | [] => ['\x7d']
  | (key, value) :: rest =>
      ',' :: renderString ascii key ++ ':' :: render ascii value ++ renderMembers ascii rest

end

/-- A fixed word and the value it stands for. -/
def parseWord (word : List Char) (value : Json) (text : List Char) : Option (Json × List Char) :=
  if word <+: text then some (value, text.drop word.length) else none

mutual

/-- The fuel bounds the depth of the calls; the length of the text is always enough. -/
def parseValue : Nat → List Char → Option (Json × List Char)
  | 0, _ => none
  | _, [] => none
  | fuel + 1, c :: rest =>
      if c = '\x22' then (parseString rest).map fun r => (.str r.1, r.2)
      else if c = '[' then
        match rest with
        | ']' :: rest => some (.arr [], rest)
        | rest => (parseItems fuel rest).map fun r => (.arr r.1, r.2)
      else if c = '\x7b' then
        match rest with
        | '\x7d' :: rest => some (.obj [], rest)
        | rest => (parseMembers fuel rest).map fun r => (object r.1, r.2)
      else if c = 'n' then parseWord ['u', 'l', 'l'] .null rest
      else if c = 't' then parseWord ['r', 'u', 'e'] (.bool true) rest
      else if c = 'f' then parseWord ['a', 'l', 's', 'e'] (.bool false) rest
      else parseNumber (c :: rest)

/-- At least one item, up to the closing bracket. -/
def parseItems : Nat → List Char → Option (List Json × List Char)
  | 0, _ => none
  | fuel + 1, text => do
      let (item, rest) ← parseValue fuel text
      match rest with
      | ']' :: rest => return ([item], rest)
      | ',' :: rest =>
          let (items, rest) ← parseItems fuel rest
          return (item :: items, rest)
      | _ => none

def parseMembers : Nat → List Char → Option (List (String × Json) × List Char)
  | 0, _ => none
  | fuel + 1, text => match text with
      | '\x22' :: rest => do
          let (key, rest) ← parseString rest
          match rest with
          | ':' :: rest =>
              let (value, rest) ← parseValue fuel rest
              match rest with
              | '\x7d' :: rest => return ([(key, value)], rest)
              | ',' :: rest =>
                  let (members, rest) ← parseMembers fuel rest
                  return ((key, value) :: members, rest)
              | _ => none
          | _ => none
      | _ => none

end

/-- A whole text is one value. -/
def parseText (text : List Char) : Option Json :=
  match parseValue (text.length + 1) text with
  | some (value, []) => some value
  | _ => none

/-! ## Values come back -/

theorem parseWord_append (word : List Char) (value : Json) (rest : List Char) :
    parseWord word value (word ++ rest) = some (value, rest) := by
  simp [parseWord]

/-- A number starts with its sign or a digit, so it starts none of the other values. -/
theorem renderInt_cons (n : Int) :
    ∃ c tail, renderInt n = c :: tail ∧ (c = '-' ∨ c.isDigit = true) := by
  unfold renderInt
  obtain ⟨c, tail, hdigits, hc⟩ := toDigits_cons n.natAbs
  split_ifs
  · exact ⟨'-', _, rfl, .inl rfl⟩
  · exact ⟨c, tail, hdigits, .inr hc⟩

theorem parseValue_number {c : Char} {tail : List Char} (h : c = '-' ∨ c.isDigit = true)
    (fuel : Nat) : parseValue (fuel + 1) (c :: tail) = parseNumber (c :: tail) := by
  have hne : ∀ other : Char, other ≠ '-' → other.isDigit = false → c ≠ other := by
    rintro other hdash hdigit rfl
    rcases h with h | h
    · exact hdash h
    · rw [hdigit] at h
      cases h
  rw [parseValue.eq_def]
  dsimp only
  rw [if_neg (hne _ (by decide) (by decide)), if_neg (hne _ (by decide) (by decide)),
    if_neg (hne _ (by decide) (by decide)), if_neg (hne _ (by decide) (by decide)),
    if_neg (hne _ (by decide) (by decide)), if_neg (hne _ (by decide) (by decide))]

/-- No value starts with a closing bracket. -/
theorem render_cons (ascii : Bool) (v : Json) :
    ∃ c tail, render ascii v = c :: tail ∧ c ≠ ']' := by
  cases v with
  | null => exact ⟨_, _, by rw [render], by decide⟩
  | bool b => cases b <;> exact ⟨_, _, by rw [render], by decide⟩
  | int n =>
      obtain ⟨c, tail, hn, hc⟩ := renderInt_cons n
      refine ⟨c, tail, by rw [render, hn], ?_⟩
      rintro rfl
      simp at hc
  | real q =>
      obtain ⟨c, tail, hn, hc⟩ := renderInt_cons (q.num.tdiv q.den)
      refine ⟨c, tail ++ ['.', '0'], by rw [render, hn]; rfl, ?_⟩
      rintro rfl
      simp at hc
  | str s => exact ⟨_, _, by rw [render, renderString]; rfl, by decide⟩
  | arr items =>
      cases items with
      | nil => exact ⟨_, _, by rw [render], by decide⟩
      | cons item rest => exact ⟨_, _, by rw [render]; rfl, by decide⟩
  | obj members =>
      cases members with
      | nil => exact ⟨_, _, by rw [render], by decide⟩
      | cons member rest => exact ⟨_, _, by rw [render]; rfl, by decide⟩

theorem ends_renderItems (ascii : Bool) (items : List Json) (rest : List Char) :
    Ends (renderItems ascii items ++ rest) := by
  intro c tail h
  cases items <;> rw [renderItems] at h <;> cases h <;> decide

theorem ends_renderMembers (ascii : Bool) (members : List (String × Json)) (rest : List Char) :
    Ends (renderMembers ascii members ++ rest) := by
  intro c tail h
  cases members <;> rw [renderMembers] at h <;> cases h <;> decide

theorem length_renderItems_pos (ascii : Bool) (items : List Json) :
    0 < (renderItems ascii items).length := by
  cases items <;> rw [renderItems] <;> simp

theorem length_renderMembers_pos (ascii : Bool) (members : List (String × Json)) :
    0 < (renderMembers ascii members).length := by
  cases members <;> rw [renderMembers] <;> simp

theorem parseItems_step {fuel : Nat} {item : Json} {items : List Json} {text rest : List Char}
    {ascii : Bool}
    (hvalue : parseValue fuel text = some (item, renderItems ascii items ++ rest))
    (hitems : ∀ next more, items = next :: more →
      parseItems fuel (render ascii next ++ renderItems ascii more ++ rest) = some (items, rest)) :
    parseItems (fuel + 1) text = some (item :: items, rest) := by
  rw [parseItems, hvalue]
  cases items with
  | nil =>
      rw [renderItems]
      rfl
  | cons next more =>
      have hnext := hitems next more rfl
      rw [renderItems]
      simp only [Option.bind_eq_bind, Option.bind_some, List.cons_append, List.append_assoc] at hnext ⊢
      rw [hnext]
      rfl

theorem parseMembers_step {fuel : Nat} {key : String} {value : Json}
    {members : List (String × Json)} {text rest : List Char} {ascii : Bool}
    (hvalue : parseValue fuel text = some (value, renderMembers ascii members ++ rest))
    (hmembers : ∀ k v more, members = (k, v) :: more →
      parseMembers fuel (renderString ascii k ++ ':' :: render ascii v ++
        renderMembers ascii more ++ rest) = some (members, rest)) :
    parseMembers (fuel + 1) (renderString ascii key ++ ':' :: text) =
      some ((key, value) :: members, rest) := by
  rw [renderString]
  simp only [List.cons_append, List.append_assoc, List.nil_append]
  rw [parseMembers]
  dsimp only
  rw [parseString_render]
  simp only [Option.bind_eq_bind, Option.bind_some, hvalue]
  cases members with
  | nil =>
      rw [renderMembers]
      rfl
  | cons member more =>
      obtain ⟨k, v⟩ := member
      have hnext := hmembers k v more rfl
      rw [renderMembers]
      simp only [List.cons_append, List.append_assoc] at hnext ⊢
      rw [hnext]
      rfl

/-- What the parser does on the text of a value, of items and of members. -/
structure ReadsBack (ascii : Bool) (fuel : Nat) : Prop where
  value : ∀ v rest, Normal v → Ends rest → (render ascii v).length < fuel →
    parseValue fuel (render ascii v ++ rest) = some (v, rest)
  items : ∀ item items rest, Normal item → NormalItems items →
    (render ascii item ++ renderItems ascii items).length < fuel →
    parseItems fuel (render ascii item ++ renderItems ascii items ++ rest) =
      some (item :: items, rest)
  members : ∀ key v members rest, Normal v → NormalMembers members →
    (renderString ascii key ++ ':' :: render ascii v ++ renderMembers ascii members).length < fuel →
    parseMembers fuel (renderString ascii key ++ ':' :: render ascii v ++
      renderMembers ascii members ++ rest) = some ((key, v) :: members, rest)

theorem readsBack_value {ascii : Bool} {fuel : Nat} (ih : ReadsBack ascii fuel) (v : Json)
    (rest : List Char) (hnormal : Normal v) (hrest : Ends rest)
    (hlen : (render ascii v).length < fuel + 1) :
    parseValue (fuel + 1) (render ascii v ++ rest) = some (v, rest) := by
  cases v with
  | null => exact parseWord_append ['u', 'l', 'l'] .null rest
  | bool b =>
      cases b with
      | false => exact parseWord_append ['a', 'l', 's', 'e'] (.bool false) rest
      | true => exact parseWord_append ['r', 'u', 'e'] (.bool true) rest
  | int n =>
      obtain ⟨c, tail, hn, hc⟩ := renderInt_cons n
      have hnumber := parseNumber_int n hrest
      rw [render]
      rw [hn, List.cons_append] at hnumber ⊢
      rw [parseValue_number hc, hnumber]
  | real q =>
      rw [Normal] at hnormal
      have hwhole : q.num.tdiv q.den = q.num := by rw [hnormal.1, Int.natCast_one, Int.tdiv_one]
      obtain ⟨c, tail, hn, hc⟩ := renderInt_cons q.num
      have hnumber := parseNumber_real q.num hrest
      rw [(Rat.den_eq_one_iff q).mp hnormal.1] at hnumber
      rw [render, hwhole, List.append_assoc]
      rw [hn, List.cons_append] at hnumber ⊢
      exact (parseValue_number hc _).trans hnumber
  | str s =>
      rw [render, renderString, parseValue.eq_def]
      simp only [List.cons_append, List.append_assoc, List.nil_append, ↓reduceIte,
        parseString_render, Option.map_some]
  | arr items =>
      cases items with
      | nil =>
          rw [render, parseValue.eq_def]
          rfl
      | cons item items =>
          rw [Normal, NormalItems] at hnormal
          rw [render] at hlen ⊢
          simp only [List.cons_append, List.length_cons] at hlen
          have hitems := ih.items item items rest hnormal.1 hnormal.2 (by omega)
          obtain ⟨c, tail, hitem, hc⟩ := render_cons ascii item
          rw [hitem] at hitems ⊢
          simp only [List.cons_append] at hitems ⊢
          rw [parseValue.eq_def]
          simp only [Char.reduceEq, ↓reduceIte]
          split
          · rename_i heq
            exact absurd (List.cons.inj heq).1 hc
          · rw [hitems]
            rfl
  | obj members =>
      cases members with
      | nil =>
          rw [render, parseValue.eq_def]
          rfl
      | cons member members =>
          obtain ⟨key, value⟩ := member
          rw [Normal, NormalMembers] at hnormal
          rw [render] at hlen ⊢
          simp only [List.cons_append, List.length_cons] at hlen
          have hmembers := ih.members key value members rest hnormal.2.1 hnormal.2.2 (by omega)
          rw [renderString] at hmembers ⊢
          simp only [List.cons_append] at hmembers ⊢
          rw [parseValue.eq_def]
          simp only [Char.reduceEq, ↓reduceIte]
          split
          · rename_i heq
            exact absurd (List.cons.inj heq).1 (by decide)
          · rw [hmembers, Option.map_some, object, storeMembers_of_sorted hnormal.1]

theorem readsBack (ascii : Bool) (fuel : Nat) : ReadsBack ascii fuel := by
  induction fuel with
  | zero =>
      constructor
      · intro v rest _ _ hlen
        omega
      · intro item items rest _ _ hlen
        omega
      · intro key v members rest _ _ hlen
        omega
  | succ fuel ih =>
      constructor
      · exact readsBack_value ih
      · intro item items rest hitem hitems hlen
        have hpos := length_renderItems_pos ascii items
        rw [List.length_append] at hlen
        rw [List.append_assoc]
        apply parseItems_step
        · exact ih.value item _ hitem (ends_renderItems ascii items rest) (by omega)
        · rintro next more rfl
          rw [NormalItems] at hitems
          rw [renderItems] at hlen
          simp only [List.cons_append, List.length_cons, List.length_append] at hlen
          exact ih.items next more rest hitems.1 hitems.2 (by rw [List.length_append]; omega)
      · intro key v members rest hv hmembers hlen
        have hpos := length_renderMembers_pos ascii members
        simp only [List.length_append, List.length_cons] at hlen
        simp only [List.append_assoc, List.cons_append]
        apply parseMembers_step
        · exact ih.value v _ hv (ends_renderMembers ascii members rest) (by omega)
        · rintro k w more rfl
          rw [NormalMembers] at hmembers
          rw [renderMembers] at hlen
          simp only [List.cons_append, List.length_cons, List.length_append] at hlen
          refine ih.members k w more rest hmembers.1 hmembers.2 ?_
          simp only [List.length_append, List.length_cons]
          omega

/-- Reading a written value gives the value. -/
theorem parseText_render (ascii : Bool) {v : Json} (h : Normal v) :
    parseText (render ascii v) = some v := by
  have hread := (readsBack ascii ((render ascii v).length + 1)).value v [] h
    (fun _ _ heq => nomatch heq) (by omega)
  rw [List.append_nil] at hread
  unfold parseText
  rw [hread]

end Json
