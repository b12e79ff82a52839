import Mathlib.Data.List.TakeWhile
import Mathlib.Data.Nat.Notation
import Mathlib.Tactic.Common

/-!
# JSON text

`JSON.stringify` with an indentation and `JSON.parse`, on values whose texts
are lists of Unicode scalar values. Reading has two stages, as the grammar
has two levels: a scanner with one state turns characters into tokens, and a
pushdown machine turns tokens into a value. Natural numbers are values; any
other number is kept as it is written. The escape of an unpaired surrogate
is no scalar value and is refused.
-/

namespace NadSafe.JsonText

/-- A JSON value. -/
inductive Value where
  /-- `null`. -/
  | null
  /-- A Boolean. -/
  | bool (b : Bool)
  /-- A natural number. -/
  | number (n : ℕ)
  /-- A number with a sign, a fraction or an exponent. -/
  | decimal (literal : List Char)
  /-- A string. -/
  | string (s : List Char)
  /-- An array. -/
  | array (items : List Value)
  /-- An object, in the order of its keys. -/
  | object (members : List (List Char×Value))

/-- A property of a parsed value. The last one of a name counts. -/
def Value.field (v : Value) (key : List Char) : Option Value :=
  match v with
  | .object members => (members.reverse.find? fun m => m.1=key).map Prod.snd
  | _ => none

/-- Later members come first. -/
theorem field_append (members more : List (List Char×Value)) (key : List Char) :
    (Value.object (members++more)).field key=
      ((Value.object more).field key).or ((Value.object members).field key) := by
  simp only [Value.field,List.reverse_append,List.find?_append,Option.map_or]

section Writing

/-- A hexadecimal digit. -/
def hexDigit (n : ℕ) : Char := Char.ofNat (if n<10 then n+48 else n+87)

/-- A character inside quotes. -/
def escapeChar (c : Char) : List Char :=
  if c= '"' then ['\\','"']
  else if c= '\\' then ['\\','\\']
  else if c.toNat=8 then ['\\','b']
  else if c.toNat=9 then ['\\','t']
  else if c.toNat=10 then ['\\','n']
  else if c.toNat=12 then ['\\','f']
  else if c.toNat=13 then ['\\','r']
  else if c.toNat<32 then ['\\','u','0','0',hexDigit (c.toNat/16),hexDigit (c.toNat%16)]
  else [c]

/-- A quoted string. -/
def quote (s : List Char) : List Char := '"'::(s.flatMap escapeChar++['"'])

variable (gap : ℕ)

/-- The line break in front of a member at a depth. -/
def lineBreak (depth : ℕ) : List Char :=
  if gap=0 then [] else '\n'::List.replicate (gap*depth) ' '

/-- The colon after a key. -/
def colon : List Char := if gap=0 then [':'] else [':',' ']

mutual

/-- The text of a value at a depth. -/
def write (depth : ℕ) : Value → List Char
  | .null => "null".toList
  | .bool b => if b=true then "true".toList else "false".toList
  | .number n => Nat.toDigits 10 n
  | .decimal literal => literal
  | .string s => quote s
  | .array [] => "[]".toList
  | .array (v::vs) => '['::(lineBreak gap (depth+1)++write (depth+1) v++writeItems (depth+1) vs++
      lineBreak gap depth++[']'])
  | .object [] => ['\x7b','\x7d']
  | .object ((k,v)::ms) => '\x7b'::(lineBreak gap (depth+1)++quote k++colon gap++write (depth+1) v++
      writeMembers (depth+1) ms++lineBreak gap depth++['\x7d'])

/-- The further items of an array. -/
def writeItems (depth : ℕ) : List Value → List Char
  | [] => []
  | v::vs => ','::(lineBreak gap depth++write depth v++writeItems depth vs)

/-- The further members of an object. -/
def writeMembers (depth : ℕ) : List (List Char×Value) → List Char
  | [] => []
  | (k,v)::ms => ','::(lineBreak gap depth++quote k++colon gap++write depth v++writeMembers depth ms)

end

/-- `JSON.stringify(value, null, gap)`. -/
def stringify (v : Value) : List Char := write gap 0 v

end Writing

section Numbers

/-- The integer part of a number without its sign, and what follows. -/
def integerPart : List Char → Option (List Char)
  | '0'::rest => some rest
  | c::rest => if c.isDigit=true then some (rest.dropWhile Char.isDigit) else none
  | [] => none

/-- At least one digit, and what follows. -/
def someDigits : List Char → Option (List Char)
  | c::rest => if c.isDigit=true then some (rest.dropWhile Char.isDigit) else none
  | [] => none

/-- An optional fraction. -/
def fractionPart : List Char → Option (List Char)
  | '.'::rest => someDigits rest
  | rest => some rest

/-- An optional exponent. -/
def exponentPart : List Char → Option (List Char)
  | c::rest =>
    if c= 'e' ∨ c= 'E' then
      match rest with
      | '+'::digits => someDigits digits
      | '-'::digits => someDigits digits
      | digits => someDigits digits
    else some (c::rest)
  | [] => some []

/-- The number grammar. -/
def isNumber (w : List Char) : Bool :=
  let unsigned := match w with
    | '-'::rest => rest
    | rest => rest
  ((integerPart unsigned).bind fractionPart).bind exponentPart=some []

/-- A word outside quotes: a literal name or a number. -/
def classify (w : List Char) : Option Value :=
  if w="null".toList then some .null
  else if w="true".toList then some (.bool true)
  else if w="false".toList then some (.bool false)
  else if isNumber w=true then
    if w.all Char.isDigit=true then some (.number (Nat.ofDigitChars 10 w 0)) else some (.decimal w)
  else none

end Numbers

section Scanning

/-- A token: one of the six marks, or a complete scalar value. -/
inductive Token where
  /-- A bracket, a brace, a comma or a colon. -/
  | mark (c : Char)
  /-- A scalar value. -/
  | scalar (v : Value)

/-- Where the scanner stands. Texts are kept as far as they are read. -/
inductive Scan where
  /-- Between tokens. -/
  | start
  /-- In a word. -/
  | word (w : List Char)
  /-- In a string. -/
  | text (s : List Char)
  /-- After a backslash. A first surrogate may stand in front of it. -/
  | escape (s : List Char) (surrogate : Option ℕ)
  /-- In the four digits of an escape. -/
  | unicode (s : List Char) (surrogate : Option ℕ) (read code : ℕ)
  /-- After a first surrogate. -/
  | paired (s : List Char) (surrogate : ℕ)

/-- JSON white space. -/
def isSpace (c : Char) : Bool := c== ' ' || c== '\t' || c== '\n' || c== '\r'

/-- The marks. -/
def isMark (c : Char) : Bool :=
  c== '[' || c== ']' || c== '\x7b' || c== '\x7d' || c== ',' || c== ':'

/-- A character that ends a word. -/
def isDelimiter (c : Char) : Bool := isSpace c || isMark c || c== '"'

/-- A character between tokens. -/
def begin_ (c : Char) : List Token×Scan :=
  if isSpace c=true then ([],.start)
  else if isMark c=true then ([.mark c],.start)
  else if c= '"' then ([],.text [])
  else ([],.word [c])

/-- The character that a short escape stands for. -/
def unescape (c : Char) : Option Char :=
  if c= '"' ∨ c= '\\' ∨ c= '/' then some c
  else if c= 'b' then some (Char.ofNat 8)
  else if c= 't' then some '\t'
  else if c= 'n' then some '\n'
  else if c= 'f' then some (Char.ofNat 12)
  else if c= 'r' then some '\r'
  else none

/-- The value of a hexadecimal digit. -/
def hexValue (c : Char) : Option ℕ :=
  if 48≤c.toNat ∧ c.toNat≤57 then some (c.toNat-48)
  else if 97≤c.toNat ∧ c.toNat≤102 then some (c.toNat-87)
  else if 65≤c.toNat ∧ c.toNat≤70 then some (c.toNat-55)
  else none

/-- A complete code unit enters the string, alone or with the surrogate in
front of it. -/
def pushUnit (s : List Char) : Option ℕ → ℕ → Option Scan
  | none,unit =>
    if 0xD800≤unit ∧ unit<0xDC00 then some (.paired s unit)
    else if 0xDC00≤unit ∧ unit<0xE000 then none
    else some (.text (s++[Char.ofNat unit]))
  | some first,unit =>
    if 0xDC00≤unit ∧ unit<0xE000 then
      some (.text (s++[Char.ofNat (0x10000+(first-0xD800)*0x400+(unit-0xDC00))]))
    else none

/-- One character: the tokens that it completes and where the scanner then
stands. -/
def scanChar : Scan → Char → Option (List Token×Scan)
  | .start,c => some (begin_ c)
  | .word w,c =>
    if isDelimiter c=true then
      (classify w).map fun v => (.scalar v::(begin_ c).1,(begin_ c).2)
    else some ([],.word (w++[c]))
  | .text s,c =>
    if c= '"' then some ([.scalar (.string s)],.start)
    else if c= '\\' then some ([],.escape s none)
    else if c.toNat<32 then none
    else some ([],.text (s++[c]))
  | .escape s surrogate,c =>
    if c= 'u' then some ([],.unicode s surrogate 0 0)
    else
      match surrogate with
      | none => (unescape c).map fun d => ([],.text (s++[d]))
      | some _ => none
  | .unicode s surrogate read code,c =>
    (hexValue c).bind fun digit =>
      if read=3 then (pushUnit s surrogate (code*16+digit)).map fun scan => ([],scan)
      else some ([],.unicode s surrogate (read+1) (code*16+digit))
  | .paired s first,c => if c= '\\' then some ([],.escape s (some first)) else none

/-- The end of the text. -/
def scanEnd : Scan → Option (List Token)
  | .start => some []
  | .word w => (classify w).map fun v => [.scalar v]
  | _ => none

/-- The tokens of a text. -/
def tokens : Scan → List Char → Option (List Token)
  | scan,[] => scanEnd scan
  | scan,c::text => (scanChar scan c).bind fun r => (tokens r.2 text).map fun rest => r.1++rest

end Scanning

section Parsing

/-- An open array or object. -/
inductive Frame where
  /-- An array with its complete items. -/
  | array (items : List Value)
  /-- An object with its complete members, at a key. -/
  | object (members : List (List Char×Value))
  /-- An object at the value of a key. -/
  | member (members : List (List Char×Value)) (key : List Char)

/-- What the machine expects next. -/
inductive Expect where
  /-- A value. -/
  | value
  /-- A first item, or the end of the array. -/
  | item
  /-- A first key, or the end of the object. -/
  | firstKey
  /-- A key. -/
  | key
  /-- The colon after a key. -/
  | colon (key : List Char)
  /-- What follows a complete value. -/
  | after (v : Value)

/-- The start of a value. -/
def startValue (stack : List Frame) : Token → Option (Expect×List Frame)
  | .scalar v => some (.after v,stack)
  | .mark c =>
    if c= '[' then some (.item,.array []::stack)
    else if c= '\x7b' then some (.firstKey,.object []::stack)
    else none

/-- A key of an object. -/
def startKey (stack : List Frame) : Token → Option (Expect×List Frame)
  | .scalar (.string k) => some (.colon k,stack)
  | _ => none

/-- What follows a complete value in the innermost open array or object. -/
def closeValue (v : Value) (c : Char) : List Frame → Option (Expect×List Frame)
  | .array items::stack =>
    if c= ',' then some (.value,.array (items++[v])::stack)
    else if c= ']' then some (.after (.array (items++[v])),stack)
    else none
  | .member members k::stack =>
    if c= ',' then some (.key,.object (members++[(k,v)])::stack)
    else if c= '\x7d' then some (.after (.object (members++[(k,v)])),stack)
    else none
  | _ => none

/-- One token. -/
def parseToken : Expect → Token → List Frame → Option (Expect×List Frame)
  | .value,t,stack => startValue stack t
  | .item,.mark ']',.array items::stack => some (.after (.array items),stack)
  | .item,t,stack => startValue stack t
  | .firstKey,.mark '\x7d',.object members::stack => some (.after (.object members),stack)
  | .firstKey,t,stack => startKey stack t
  | .key,t,stack => startKey stack t
  | .colon k,.mark ':',.object members::stack => some (.value,.member members k::stack)
  | .after v,.mark c,stack => closeValue v c stack
  | _,_,_ => none

/-- The value of a token list. -/
def parseTokens : Expect → List Frame → List Token → Option Value
  | .after v,[],[] => some v
  | _,_,[] => none
  | expect,stack,t::ts => (parseToken expect t stack).bind fun r => parseTokens r.1 r.2 ts

/-- `JSON.parse`. A text that is no JSON is `none`. -/
def parse (text : List Char) : Option Value := (tokens .start text).bind (parseTokens .value [])

end Parsing

section Scanned

/-- Between tokens, a word may end here. -/
def Ends (rest : List Char) : Prop := ∀ c∈rest.head?,isDelimiter c=true

theorem Ends.nil : Ends [] := by simp [Ends]

theorem Ends.cons {c : Char} (h : isDelimiter c=true) (rest : List Char) : Ends (c::rest) := by
  simpa [Ends] using h

/-- White space is skipped. -/
theorem tokens_space {c : Char} (h : isSpace c=true) (rest : List Char) :
    tokens .start (c::rest)=tokens .start rest := by
  simp [tokens,scanChar,begin_,h]

/-- A mark is a token. -/
theorem tokens_mark {c : Char} (hspace : isSpace c=false) (h : isMark c=true) (rest : List Char) :
    tokens .start (c::rest)=(tokens .start rest).map fun ts => .mark c::ts := by
  simp [tokens,scanChar,begin_,hspace,h]

theorem tokens_replicate (n : ℕ) (rest : List Char) :
    tokens .start (List.replicate n ' '++rest)=tokens .start rest := by
  induction n with
  | zero => rfl
  | succ n ih =>
    rw [List.replicate_succ,List.cons_append,tokens_space (by decide),ih]

theorem tokens_lineBreak (gap depth : ℕ) (rest : List Char) :
    tokens .start (lineBreak gap depth++rest)=tokens .start rest := by
  unfold lineBreak
  split
  · rfl
  · rw [List.cons_append,tokens_space (by decide),tokens_replicate]

theorem tokens_colon (gap : ℕ) (rest : List Char) :
    tokens .start (colon gap++rest)=(tokens .start rest).map fun ts => .mark ':'::ts := by
  unfold colon
  split
  · exact tokens_mark (by decide) (by decide) rest
  · rw [List.cons_append,tokens_mark (by decide) (by decide),List.singleton_append,
      tokens_space (by decide)]

/-- The characters of a word. -/
theorem tokens_word_append {w : List Char} (h : ∀ c∈w,isDelimiter c=false) (read rest : List Char) :
    tokens (.word read) (w++rest)=tokens (.word (read++w)) rest := by
  induction w generalizing read with
  | nil => simp
  | cons c w ih =>
    have hc : isDelimiter c=false := h c List.mem_cons_self
    have hrest := ih (fun d hd => h d (List.mem_cons_of_mem c hd)) (read++[c])
    rw [List.append_assoc,List.singleton_append] at hrest
    simp [tokens,scanChar,hc,hrest]

/-- A test of a whole word. -/
theorem undelimited {w : List Char} (h : (w.all fun c => !isDelimiter c)=true) :
    ∀ c∈w,isDelimiter c=false := by
  simpa using h

/-- A word in front of a place where it may end. -/
theorem tokens_word {w : List Char} {v : Value} (hne : w≠[]) (h : ∀ c∈w,isDelimiter c=false)
    (hv : classify w=some v) {rest : List Char} (hrest : Ends rest) :
    tokens .start (w++rest)=(tokens .start rest).map fun ts => .scalar v::ts := by
  obtain ⟨c,w,rfl⟩ := List.exists_cons_of_ne_nil hne
  have hc : isDelimiter c=false := h c List.mem_cons_self
  have hstart : begin_ c=([],.word [c]) := by
    simp only [isDelimiter,Bool.or_eq_false_iff,beq_eq_false_iff_ne] at hc
    simp [begin_,hc]
  have hread : tokens .start (c::w++rest)=tokens (.word (c::w)) rest := by
    have hall := tokens_word_append (fun d hd => h d (List.mem_cons_of_mem c hd)) [c] rest
    simp [tokens,scanChar,hstart,hall]
  rw [hread]
  cases rest with
  | nil => simp [tokens,scanEnd,hv]
  | cons d rest =>
    have hd : isDelimiter d=true := hrest d rfl
    simp [tokens,scanChar,hd,hv,Function.comp_def]

/-- A hexadecimal digit is read back. -/
theorem hexValue_digit {n : ℕ} (h : n<16) : hexValue (hexDigit n)=some n := by
  revert h
  revert n
  decide

/-- A short escape is read back. -/
theorem tokens_escape {c d : Char} (hu : d≠ 'u') (h : unescape d=some c) (read rest : List Char) :
    tokens (.text read) (['\\',d]++rest)=tokens (.text (read++[c])) rest := by
  simp [tokens,scanChar,hu,h,Function.comp_def]

/-- The escape of a control character is read back. -/
theorem tokens_control {c : Char} (h : c.toNat<32) (read rest : List Char) :
    tokens (.text read) (['\\','u','0','0',hexDigit (c.toNat/16),hexDigit (c.toNat%16)]++rest)=
      tokens (.text (read++[c])) rest := by
  have hhigh : hexValue (hexDigit (c.toNat/16))=some (c.toNat/16) := hexValue_digit (by omega)
  have hlow : hexValue (hexDigit (c.toNat%16))=some (c.toNat%16) := hexValue_digit (by omega)
  have hzero : hexValue '0'=some 0 := by decide
  have hcode : c.toNat/16*16+c.toNat%16=c.toNat := Nat.div_add_mod' _ _
  have hunit : pushUnit read none c.toNat=some (.text (read++[c])) := by
    rw [pushUnit,if_neg (by omega),if_neg (by omega),Char.ofNat_toNat]
  simp [tokens,scanChar,hhigh,hlow,hzero,hcode,hunit,Function.comp_def]

theorem tokens_escapeChar (c : Char) (read rest : List Char) :
    tokens (.text read) (escapeChar c++rest)=tokens (.text (read++[c])) rest := by
  have hof {n : ℕ} (h : c.toNat=n) : some (Char.ofNat n)=some c := by rw [←h,Char.ofNat_toNat]
  unfold escapeChar
  split_ifs with hquote hslash hback htab hline hfeed hreturn hcontrol
  · exact tokens_escape (by decide) (by rw [hquote]; rfl) read rest
  · exact tokens_escape (by decide) (by rw [hslash]; rfl) read rest
  · exact @tokens_escape c 'b' (by decide) (hof hback) read rest
  · exact @tokens_escape c 't' (by decide) (hof htab) read rest
  · exact @tokens_escape c 'n' (by decide) (hof hline) read rest
  · exact @tokens_escape c 'f' (by decide) (hof hfeed) read rest
  · exact @tokens_escape c 'r' (by decide) (hof hreturn) read rest
  · exact tokens_control hcontrol read rest
  · simp [tokens,scanChar,hquote,hslash,hcontrol]

theorem tokens_quote (s rest : List Char) :
    tokens .start (quote s++rest)=(tokens .start rest).map fun ts => .scalar (.string s)::ts := by
  have htext : ∀ read : List Char,tokens (.text read) (s.flatMap escapeChar++('"'::rest))=
      (tokens .start rest).map fun ts => .scalar (.string (read++s))::ts := by
    induction s with
    | nil => simp [tokens,scanChar]
    | cons c s ih =>
      intro read
      rw [List.flatMap_cons,List.append_assoc,tokens_escapeChar,ih]
      simp
  have hstart : scanChar .start '"'=some ([],.text []) := rfl
  simp [quote,tokens,hstart,htext,Function.comp_def]

/-- Decimal digits are no delimiters. -/
theorem isDelimiter_digit {c : Char} (h : c.isDigit=true) : isDelimiter c=false := by
  by_contra hend
  simp only [isDelimiter,isSpace,isMark,Bool.or_eq_true,Bool.not_eq_false,beq_iff_eq] at hend
  rcases hend with ((((rfl|rfl)|rfl)|rfl)|(((((rfl|rfl)|rfl)|rfl)|rfl)|rfl))|rfl <;> cases h

theorem isDigit_toDigits {n : ℕ} {c : Char} (h : c∈Nat.toDigits 10 n) : c.isDigit=true :=
  Nat.isDigit_of_mem_toDigits (by decide) (by decide) h

/-- A positive number is written without a leading zero. -/
theorem head_toDigits {n : ℕ} (h : 0<n) : (Nat.toDigits 10 n).head?≠some '0' := by
  induction n using Nat.strongRecOn with
  | ind n ih =>
    rcases Nat.lt_or_ge n 10 with hsmall|hlarge
    · rw [Nat.toDigits_of_lt_base hsmall]
      simp only [List.head?_cons,ne_eq,Option.some.injEq,Nat.digitChar_eq_zero]
      omega
    · have hfirst := ih (n/10) (by omega) (by omega)
      obtain ⟨c,rest,hdigits⟩ := List.exists_cons_of_ne_nil (Nat.toDigits_ne_nil (n:=n/10) (b:=10))
      rw [hdigits] at hfirst
      rw [Nat.toDigits_of_base_le (by decide) hlarge,hdigits]
      simpa using hfirst

/-- Digits without a superfluous leading zero are a number. -/
theorem isNumber_digits {w : List Char} (hne : w≠[]) (hall : w.all Char.isDigit=true)
    (hzero : w.head?=some '0' → w=['0']) : isNumber w=true := by
  obtain ⟨c,rest,rfl⟩ := List.exists_cons_of_ne_nil hne
  rw [List.all_cons,Bool.and_eq_true] at hall
  have hsign : c≠ '-' := by
    rintro rfl
    exact absurd hall.1 (by decide)
  have hrest : rest.dropWhile Char.isDigit=[] := by
    rw [List.dropWhile_eq_nil_iff]
    exact List.all_eq_true.mp hall.2
  have hinteger : integerPart (c::rest)=some [] := by
    by_cases hc : c= '0'
    · subst hc
      cases hzero rfl
      rfl
    · simp [integerPart,hall.1,hrest]
  unfold isNumber
  simp [hsign,hinteger,fractionPart,exponentPart]

/-- A written natural number is one. -/
theorem classify_toDigits (n : ℕ) : classify (Nat.toDigits 10 n)=some (.number n) := by
  have hall : (Nat.toDigits 10 n).all Char.isDigit=true :=
    List.all_eq_true.mpr fun c hc => isDigit_toDigits hc
  have hne := Nat.toDigits_ne_nil (n:=n) (b:=10)
  have hvalue : Nat.ofDigitChars 10 (Nat.toDigits 10 n) 0=n := Nat.ofDigitChars_ten_toDigits
  have hzero : (Nat.toDigits 10 n).head?=some '0' → Nat.toDigits 10 n=['0'] := by
    intro hhead
    rcases Nat.eq_zero_or_pos n with rfl|hpos
    · rfl
    · exact absurd hhead (head_toDigits hpos)
  have hnumber := isNumber_digits hne hall hzero
  have hword {word : List Char} (h : word.all Char.isDigit=false) : Nat.toDigits 10 n≠word := by
    rintro rfl
    rw [hall] at h
    cases h
  rw [classify,if_neg (hword (by decide)),if_neg (hword (by decide)),if_neg (hword (by decide)),
    if_pos hnumber,if_pos hall,hvalue]

/-- A written natural number is its token. -/
theorem tokens_number (n : ℕ) {rest : List Char} (hrest : Ends rest) :
    tokens .start (Nat.toDigits 10 n++rest)=(tokens .start rest).map fun ts => .scalar (.number n)::ts :=
  tokens_word Nat.toDigits_ne_nil (fun _ hc => isDelimiter_digit (isDigit_toDigits hc))
    (classify_toDigits n) hrest

end Scanned

section Rounds

mutual

/-- Every number in a value is a natural number. -/
def Exact : Value → Prop
  | .decimal _ => False
  | .array items => ExactItems items
  | .object members => ExactMembers members
  | _ => True

/-- The same for the items of an array. -/
def ExactItems : List Value → Prop
  | [] => True
  | v::vs => Exact v ∧ ExactItems vs

/-- And for the members of an object. -/
def ExactMembers : List (List Char×Value) → Prop
  | [] => True
  | (_,v)::ms => Exact v ∧ ExactMembers ms

end

theorem exactItems_iff {vs : List Value} : ExactItems vs ↔ ∀ v∈vs,Exact v := by
  induction vs with
  | nil => simp [ExactItems]
  | cons v vs ih => simp [ExactItems,ih]

theorem exactMembers_iff {ms : List (List Char×Value)} : ExactMembers ms ↔ ∀ m∈ms,Exact m.2 := by
  induction ms with
  | nil => simp [ExactMembers]
  | cons m ms ih => simp [ExactMembers,ih]

/-- A number that is no plain natural one. -/
def isLiteral (w : List Char) : Bool :=
  isNumber w && !w.all Char.isDigit && w.all fun c => !isDelimiter c

mutual

/-- Every literal is a number, as in a value that was read. -/
def Written : Value → Prop
  | .decimal w => isLiteral w=true
  | .array items => WrittenItems items
  | .object members => WrittenMembers members
  | _ => True

/-- The same for the items of an array. -/
def WrittenItems : List Value → Prop
  | [] => True
  | v::vs => Written v ∧ WrittenItems vs

/-- And for the members of an object. -/
def WrittenMembers : List (List Char×Value) → Prop
  | [] => True
  | (_,v)::ms => Written v ∧ WrittenMembers ms

end

theorem writtenMembers_iff {ms : List (List Char×Value)} : WrittenMembers ms ↔ ∀ m∈ms,Written m.2 := by
  induction ms with
  | nil => simp [WrittenMembers]
  | cons m ms ih => simp [WrittenMembers,ih]

mutual

/-- A value without literals is written. -/
theorem written_of_exact : ∀ {v : Value},Exact v → Written v
  | .null,_ => trivial
  | .bool _,_ => trivial
  | .number _,_ => trivial
  | .decimal _,h => absurd h id
  | .string _,_ => trivial
  | .array _,h => written_of_exactItems h
  | .object _,h => written_of_exactMembers h

/-- And items. -/
theorem written_of_exactItems : ∀ {vs : List Value},ExactItems vs → WrittenItems vs
  | [],_ => trivial
  | _::_,h => ⟨written_of_exact h.1,written_of_exactItems h.2⟩

/-- And members. -/
theorem written_of_exactMembers : ∀ {ms : List (List Char×Value)},ExactMembers ms → WrittenMembers ms
  | [],_ => trivial
  | (_,_)::_,h => ⟨written_of_exact h.1,written_of_exactMembers h.2⟩

end

/-- A literal is read back. -/
theorem classify_literal {w : List Char} (h : isLiteral w=true) : classify w=some (.decimal w) := by
  rw [isLiteral,Bool.and_eq_true,Bool.and_eq_true,Bool.not_eq_true'] at h
  obtain ⟨⟨hnumber,hdigits⟩,_⟩ := h
  have hname : ∀ {v : List Char},isNumber v=false → w≠v := by
    rintro v hv rfl
    rw [hv] at hnumber
    cases hnumber
  have hplain : ¬w.all Char.isDigit=true := by
    rw [hdigits]
    exact Bool.false_ne_true
  rw [classify,if_neg (hname (by decide)),if_neg (hname (by decide)),if_neg (hname (by decide)),if_pos hnumber,
    if_neg hplain]

mutual

/-- The tokens of a value. -/
def tokensOf : Value → List Token
  | .array [] => [.mark '[',.mark ']']
  | .array (v::vs) => .mark '['::(tokensOf v++itemTokens vs++[.mark ']'])
  | .object [] => [.mark '\x7b',.mark '\x7d']
  | .object ((k,v)::ms) => .mark '\x7b'::.scalar (.string k)::.mark ':'::
      (tokensOf v++memberTokens ms++[.mark '\x7d'])
  | v => [.scalar v]

/-- The tokens of the further items. -/
def itemTokens : List Value → List Token
  | [] => []
  | v::vs => .mark ','::(tokensOf v++itemTokens vs)

/-- The tokens of the further members. -/
def memberTokens : List (List Char×Value) → List Token
  | [] => []
  | (k,v)::ms => .mark ','::.scalar (.string k)::.mark ':'::(tokensOf v++memberTokens ms)

end

/-- The first token of a value closes nothing. -/
theorem tokensOf_head (v : Value) : ∃ t ts,tokensOf v=t::ts ∧ t≠.mark ']' := by
  cases v with
  | array items => cases items <;> exact ⟨_,_,rfl,by simp⟩
  | object members => cases members <;> exact ⟨_,_,rfl,by simp⟩
  | _ => exact ⟨_,_,rfl,by simp⟩

/-- A first item is a value like any other. -/
theorem parse_item (v : Value) (stack : List Frame) (rest : List Token) :
    parseTokens .item stack (tokensOf v++rest)=parseTokens .value stack (tokensOf v++rest) := by
  obtain ⟨t,ts,hv,ht⟩ := tokensOf_head v
  have hstep : parseToken .item t stack=startValue stack t := by
    cases t with
    | scalar v => rfl
    | mark c =>
      have hc : c≠ ']' := fun h => ht (congrArg Token.mark h)
      simp [parseToken,hc]
  rw [hv,List.cons_append,parseTokens,parseTokens,hstep]
  rfl

mutual

/-- The machine reads a value back. -/
theorem parse_value : ∀ (v : Value) (stack : List Frame) (rest : List Token),
    parseTokens .value stack (tokensOf v++rest)=parseTokens (.after v) stack rest
  | .null,_,_ => rfl
  | .bool _,_,_ => rfl
  | .number _,_,_ => rfl
  | .decimal _,_,_ => rfl
  | .string _,_,_ => rfl
  | .array [],_,_ => rfl
  | .array (v::vs),stack,rest => by
    have hfirst := parse_value v (.array []::stack) (itemTokens vs++(.mark ']'::rest))
    have hitems := parse_items vs v [] stack rest
    rw [←parse_item] at hfirst
    rw [hitems] at hfirst
    rw [tokensOf,List.cons_append,List.append_assoc,List.append_assoc]
    exact hfirst
  | .object [],_,_ => rfl
  | .object ((k,v)::ms),stack,rest => by
    have hfirst := parse_value v (.member [] k::stack) (memberTokens ms++(.mark '\x7d'::rest))
    have hmembers := parse_members ms k v [] stack rest
    rw [hmembers] at hfirst
    rw [tokensOf,List.cons_append,List.cons_append,List.cons_append,List.append_assoc,List.append_assoc]
    exact hfirst

/-- And the further items of an array. -/
theorem parse_items : ∀ (vs : List Value) (v : Value) (done : List Value) (stack : List Frame)
    (rest : List Token),
    parseTokens (.after v) (.array done::stack) (itemTokens vs++(.mark ']'::rest))=
      parseTokens (.after (.array (done++v::vs))) stack rest
  | [],_,_,_,_ => rfl
  | w::vs,v,done,stack,rest => by
    have hnext := parse_value w (.array (done++[v])::stack) (itemTokens vs++(.mark ']'::rest))
    have hitems := parse_items vs w (done++[v]) stack rest
    rw [hitems,List.append_assoc,List.singleton_append] at hnext
    rw [itemTokens,List.cons_append,List.append_assoc]
    exact hnext

/-- And the further members of an object. -/
theorem parse_members : ∀ (ms : List (List Char×Value)) (k : List Char) (v : Value)
    (done : List (List Char×Value)) (stack : List Frame) (rest : List Token),
    parseTokens (.after v) (.member done k::stack) (memberTokens ms++(.mark '\x7d'::rest))=
      parseTokens (.after (.object (done++(k,v)::ms))) stack rest
  | [],_,_,_,_,_ => rfl
  | (l,w)::ms,k,v,done,stack,rest => by
    have hnext := parse_value w (.member (done++[(k,v)]) l::stack) (memberTokens ms++(.mark '\x7d'::rest))
    have hmembers := parse_members ms l w (done++[(k,v)]) stack rest
    rw [hmembers,List.append_assoc,List.singleton_append] at hnext
    rw [memberTokens,List.cons_append,List.cons_append,List.cons_append,List.append_assoc]
    exact hnext

end

/-- A word may end at a line break or at the mark behind it. -/
theorem ends_lineBreak (gap depth : ℕ) {c : Char} (h : isDelimiter c=true) (rest : List Char) :
    Ends (lineBreak gap depth++c::rest) := by
  unfold lineBreak
  split
  · exact .cons h rest
  · exact .cons (by decide) _

theorem ends_items (gap depth : ℕ) (vs : List Value) {rest : List Char} (h : Ends rest) :
    Ends (writeItems gap depth vs++rest) := by
  cases vs with
  | nil => exact h
  | cons v vs => exact .cons (by decide) _

theorem ends_members (gap depth : ℕ) (ms : List (List Char×Value)) {rest : List Char} (h : Ends rest) :
    Ends (writeMembers gap depth ms++rest) := by
  cases ms with
  | nil => exact h
  | cons m ms => exact .cons (by decide) _

mutual

/-- The scanner reads the tokens of a value back. -/
theorem scan_value (gap : ℕ) : ∀ (v : Value) (depth : ℕ) {rest : List Char},Written v → Ends rest →
    tokens .start (write gap depth v++rest)=(tokens .start rest).map fun ts => tokensOf v++ts
  | .null,_,_,_,hrest => tokens_word (w:="null".toList) (by decide) (undelimited (by decide)) rfl hrest
  | .bool true,_,_,_,hrest => tokens_word (w:="true".toList) (by decide) (undelimited (by decide)) rfl hrest
  | .bool false,_,_,_,hrest => tokens_word (w:="false".toList) (by decide) (undelimited (by decide)) rfl hrest
  | .number n,_,_,_,hrest => tokens_number n hrest
  | .decimal w,_,_,hwritten,hrest => by
    have hnumber := hwritten
    change isLiteral w=true at hnumber
    rw [isLiteral,Bool.and_eq_true,Bool.and_eq_true] at hnumber
    have hne : w≠[] := by
      rintro rfl
      cases hnumber.1.1
    exact tokens_word hne (undelimited hnumber.2) (classify_literal hwritten) hrest
  | .string s,_,_,_,_ => tokens_quote s _
  | .array [],depth,rest,_,_ => by
    change tokens .start ('[':: ']'::rest)=_
    rw [tokens_mark (by decide) (by decide),tokens_mark (by decide) (by decide),Option.map_map]
    rfl
  | .array (v::vs),depth,rest,hwritten,_ => by
    have htext : write gap depth (.array (v::vs))++rest= '['::(lineBreak gap (depth+1)++
        (write gap (depth+1) v++(writeItems gap (depth+1) vs++(lineBreak gap depth++(']'::rest))))) := by
      simp [write]
    have hclose : Ends (lineBreak gap depth++(']'::rest)) := ends_lineBreak gap depth (by decide) rest
    have hfirst := scan_value gap v (depth+1) hwritten.1 (ends_items gap (depth+1) vs hclose)
    have hitems := scan_items gap vs (depth+1) hwritten.2 hclose
    rw [htext,tokens_mark (by decide) (by decide),tokens_lineBreak,hfirst,hitems,tokens_lineBreak,
      tokens_mark (by decide) (by decide)]
    simp [tokensOf,Function.comp_def]
  | .object [],depth,rest,_,_ => by
    change tokens .start ('\x7b':: '\x7d'::rest)=_
    rw [tokens_mark (by decide) (by decide),tokens_mark (by decide) (by decide),Option.map_map]
    rfl
  | .object ((k,v)::ms),depth,rest,hwritten,_ => by
    have htext : write gap depth (.object ((k,v)::ms))++rest= '\x7b'::(lineBreak gap (depth+1)++
        (quote k++(colon gap++(write gap (depth+1) v++(writeMembers gap (depth+1) ms++
          (lineBreak gap depth++('\x7d'::rest))))))) := by
      simp [write]
    have hclose : Ends (lineBreak gap depth++('\x7d'::rest)) := ends_lineBreak gap depth (by decide) rest
    have hfirst := scan_value gap v (depth+1) hwritten.1 (ends_members gap (depth+1) ms hclose)
    have hmembers := scan_members gap ms (depth+1) hwritten.2 hclose
    rw [htext,tokens_mark (by decide) (by decide),tokens_lineBreak,tokens_quote,tokens_colon,hfirst,
      hmembers,tokens_lineBreak,tokens_mark (by decide) (by decide)]
    simp [tokensOf,Function.comp_def]

/-- And of the further items. -/
theorem scan_items (gap : ℕ) : ∀ (vs : List Value) (depth : ℕ) {rest : List Char},WrittenItems vs →
    Ends rest → tokens .start (writeItems gap depth vs++rest)=
      (tokens .start rest).map fun ts => itemTokens vs++ts
  | [],_,_,_,_ => by simp [writeItems,itemTokens]
  | v::vs,depth,rest,hwritten,hrest => by
    have htext : writeItems gap depth (v::vs)++rest=
        ','::(lineBreak gap depth++(write gap depth v++(writeItems gap depth vs++rest))) := by
      simp [writeItems]
    have hnext := scan_value gap v depth hwritten.1 (ends_items gap depth vs hrest)
    have hitems := scan_items gap vs depth hwritten.2 hrest
    rw [htext,tokens_mark (by decide) (by decide),tokens_lineBreak,hnext,hitems]
    simp [itemTokens,Function.comp_def]

/-- And of the further members. -/
theorem scan_members (gap : ℕ) : ∀ (ms : List (List Char×Value)) (depth : ℕ) {rest : List Char},
    WrittenMembers ms → Ends rest → tokens .start (writeMembers gap depth ms++rest)=
      (tokens .start rest).map fun ts => memberTokens ms++ts
  | [],_,_,_,_ => by simp [writeMembers,memberTokens]
  | (k,v)::ms,depth,rest,hwritten,hrest => by
    have htext : writeMembers gap depth ((k,v)::ms)++rest= ','::(lineBreak gap depth++(quote k++
        (colon gap++(write gap depth v++(writeMembers gap depth ms++rest))))) := by
      simp [writeMembers]
    have hnext := scan_value gap v depth hwritten.1 (ends_members gap depth ms hrest)
    have hmembers := scan_members gap ms depth hwritten.2 hrest
    rw [htext,tokens_mark (by decide) (by decide),tokens_lineBreak,tokens_quote,tokens_colon,hnext,hmembers]
    simp [memberTokens,Function.comp_def]

end

/-- Reading inverts writing, with any indentation. -/
theorem parse_written (gap : ℕ) {v : Value} (h : Written v) : parse (stringify gap v)=some v := by
  have hscan := scan_value gap v 0 h .nil
  have hparse := parse_value v [] []
  rw [List.append_nil] at hscan hparse
  rw [parse,stringify,hscan]
  simp only [tokens,scanEnd,Option.map_some,Option.bind_some,List.append_nil]
  rw [hparse]
  rfl

/-- And so it does for values without literals. -/
theorem parse_stringify (gap : ℕ) {v : Value} (h : Exact v) : parse (stringify gap v)=some v :=
  parse_written gap (written_of_exact h)

end Rounds

-- A trailing comma, two values and an unpaired mark are no JSON.
example : (parse "[1,]".toList).isSome=false ∧ (parse "1 2".toList).isSome=false ∧
    (parse "[1\x7d".toList).isSome=false := by decide

end NadSafe.JsonText
