import NadSafe.RecoveryPhrase

/-!
# Agreement of the two phrase parsers

Each parser drops the white space of its language and accepts 64 hexadecimal
digits. The two notions of white space differ in U+0085, which only Rust
drops, and U+FEFF, which only JavaScript drops.
-/

namespace NadSafe.PhraseAgreement

open HostText WebCrypto CryptoCore RecoveryPhrase

/-- U+0085. -/
def NEXT_LINE : Char := Char.ofNat 133

/-- U+FEFF. -/
def BYTE_ORDER_MARK : Char := Char.ofNat 65279

/-- 64 hexadecimal digits. -/
def IsHex (s : Text) : Prop := s.length=64 ∧ ∀ c∈s,isAsciiHexdigit c=true

/-- The characters that are no white space for Rust. -/
def rustDigits (phrase : Text) : Text := phrase.filter fun c => !isWhitespace c

/-- The characters that are no white space for JavaScript. -/
def webDigits (phrase : Text) : Text := phrase.filter fun c => !jsWhitespace c

/-- The characters that are no white space for either. -/
def digits (phrase : Text) : Text := phrase.filter fun c => !(isWhitespace c || jsWhitespace c)

/-- Both parsers reject the phrase, or return the same 32 bytes. -/
def Agree (phrase : Text) : Prop :=
  (∃ entropy : Fixed 32,phraseToEntropyRust phrase=.ok entropy.1 ∧ phraseToEntropyWeb phrase=.ok entropy.1) ∨
    ((∃ e,phraseToEntropyRust phrase=.error e) ∧ ∃ e,phraseToEntropyWeb phrase=.error e)

section Digits

/-- A digit in lower case is the printed digit of its value. -/
theorem toLower_digit {c : Char} {n : ℕ} (hc : digitValue 16 c=some n) : c.toLower=Nat.digitChar n ∧ n<16 := by
  have hall : ∀ k : Fin 128,∀ n∈digitValue 16 (Char.ofNat k.1),(Char.ofNat k.1).toLower=Nat.digitChar n := by
    decide
  have hn : n<16 := by
    unfold digitValue at hc
    dsimp only at hc
    split_ifs at hc with _ hlt _ hlt _ hlt hlt
    all_goals
      rw [← Option.some.inj hc]
      exact hlt
  have hlower := hall ⟨c.toNat,(hexDigit_plain hc).2.2.2⟩ n
  rw [Char.ofNat_toNat] at hlower
  exact ⟨hlower hc,hn⟩

/-- Digits in pairs are the digits of bytes. -/
theorem exists_bytes (n : ℕ) {s : Text} (hlength : s.length=2*n) (hs : ∀ c∈s,isAsciiHexdigit c=true) :
    ∃ bytes : Bytes,bytes.length=n ∧ s.map Char.toLower=hexText bytes := by
  induction n generalizing s with
  | zero =>
    rw [List.length_eq_zero_iff.mp hlength]
    exact ⟨[],rfl,rfl⟩
  | succ n ih =>
    obtain ⟨c,d,s,rfl⟩ : ∃ c d rest,s=c::d::rest := by
      match s,hlength with
      | c::d::rest,_ => exact ⟨c,d,rest,rfl⟩
    have hrest : s.length=2*n := by
      simp only [List.length_cons] at hlength
      omega
    obtain ⟨bytes,hbytes,htext⟩ := ih hrest fun e he => hs e (by simp [he])
    obtain ⟨hi,hhi⟩ := Option.isSome_iff_exists.mp (hs c (by simp))
    obtain ⟨lo,hlo⟩ := Option.isSome_iff_exists.mp (hs d (by simp))
    obtain ⟨hc,hhi16⟩ := toLower_digit hhi
    obtain ⟨hd,hlo16⟩ := toLower_digit hlo
    refine ⟨UInt8.ofNat (16*hi+lo)::bytes,by simp [hbytes],?_⟩
    have hbyte : (UInt8.ofNat (16*hi+lo)).toNat=16*hi+lo := Base64.toNat_ofNat_small (by omega)
    have hprinted : hexByte (UInt8.ofNat (16*hi+lo))=[c.toLower,d.toLower] := by
      have hdiv : (16*hi+lo)/16=hi := by omega
      have hmod : (16*hi+lo)%16=lo := by omega
      rw [hexByte_eq,hbyte,hdiv,hmod,hc,hd]
    have htext' : hexText (UInt8.ofNat (16*hi+lo)::bytes)=hexByte (UInt8.ofNat (16*hi+lo))++hexText bytes :=
      List.flatMap_cons
    rw [htext',hprinted,← htext]
    rfl

/-- What both parsers make of 64 digits. -/
theorem IsHex.bytes {s : Text} (hs : IsHex s) : ∃ entropy : Fixed 32,
    (pairs 32 s).mapM fromStrRadix=some entropy.1 ∧
      (pairs 32 s).map (fun pair => storeByte (parseIntHex pair))=entropy.1 := by
  obtain ⟨bytes,hbytes,htext⟩ := exists_bytes 32 hs.1 hs.2
  obtain ⟨hrust,hweb,-⟩ := pairs_hexText bytes htext
  rw [hbytes] at hrust hweb
  exact ⟨⟨bytes,hbytes⟩,hrust,hweb⟩

/-- Digits are ASCII. -/
theorem ascii_of_digits {s : Text} (hs : ∀ c∈s,isAsciiHexdigit c=true) : ∀ c∈s,c.toNat<128 := by
  intro c hc
  obtain ⟨n,hn⟩ := Option.isSome_iff_exists.mp (hs c hc)
  exact (hexDigit_plain hn).2.2.2

theorem all_false {s : Text} (hs : ¬∀ c∈s,isAsciiHexdigit c=true) : s.all isAsciiHexdigit=false := by
  rw [← Bool.not_eq_true,List.all_eq_true]
  exact hs

/-- The Rust parser accepts 64 digits, and nothing else. -/
theorem rust_digits {phrase : Text} (h : IsHex (rustDigits phrase)) : ∃ entropy : Fixed 32,
    phraseToEntropyRust phrase=.ok entropy.1 ∧ (pairs 32 (rustDigits phrase)).mapM fromStrRadix=some entropy.1 := by
  obtain ⟨entropy,hrust,-⟩ := h.bytes
  have hlength : (utf8 (rustDigits phrase)).length=64 := by rw [utf8_length_ascii (ascii_of_digits h.2),h.1]
  have hall : (rustDigits phrase).all isAsciiHexdigit=true := List.all_eq_true.mpr h.2
  refine ⟨entropy,?_,hrust⟩
  unfold phraseToEntropyRust
  rw [rustDigits] at hlength hall hrust
  simp [hlength,hall,hrust]

theorem rust_rejects {phrase : Text} (h : ¬IsHex (rustDigits phrase)) : ∃ e,phraseToEntropyRust phrase=.error e := by
  have hguard : (utf8 (rustDigits phrase)).length≠64 ∨ (rustDigits phrase).all isAsciiHexdigit=false := by
    by_cases hs : ∀ c∈rustDigits phrase,isAsciiHexdigit c=true
    · rw [utf8_length_ascii (ascii_of_digits hs)]
      exact .inl fun hlength => h ⟨hlength,hs⟩
    · exact .inr (all_false hs)
  exact ⟨_,if_pos hguard⟩

/-- The web parser accepts 64 digits, and nothing else. -/
theorem web_digits {phrase : Text} (h : IsHex (webDigits phrase)) :
    phraseToEntropyWeb phrase=.ok ((pairs 32 (webDigits phrase)).map fun pair => storeByte (parseIntHex pair)) := by
  have hlength : jsLength (webDigits phrase)=64 := by rw [jsLength_ascii (ascii_of_digits h.2),h.1]
  have hall : (webDigits phrase).all isAsciiHexdigit=true := List.all_eq_true.mpr h.2
  unfold phraseToEntropyWeb
  rw [webDigits] at hlength hall
  simp [hlength,hall,webDigits]

theorem web_rejects {phrase : Text} (h : ¬IsHex (webDigits phrase)) : ∃ e,phraseToEntropyWeb phrase=.error e := by
  unfold phraseToEntropyWeb
  dsimp only
  by_cases hs : ∀ c∈webDigits phrase,isAsciiHexdigit c=true
  · have hlength : jsLength (webDigits phrase)≠64 := by
      rw [jsLength_ascii (ascii_of_digits hs)]
      exact fun hlength => h ⟨hlength,hs⟩
    exact ⟨_,if_pos hlength⟩
  · split_ifs with hlength hall
    · exact ⟨_,rfl⟩
    · exact ⟨_,rfl⟩
    · exact absurd (all_false hs) hall

end Digits

section Agreement

variable {phrase : Text}

/-- White space of one language is white space of the other, but for one
character each. -/
theorem whitespace_cases (c : Char) :
    (c≠BYTE_ORDER_MARK → (isWhitespace c || jsWhitespace c)=isWhitespace c) ∧
      (c≠NEXT_LINE → (isWhitespace c || jsWhitespace c)=jsWhitespace c) := by
  have hcode : ∀ d : Char,c≠d → c.toNat≠d.toNat := fun d hne he => hne (Char.toNat_inj.mp he)
  constructor
  · intro hne
    have hmark : c.toNat≠65279 := hcode BYTE_ORDER_MARK hne
    rw [Bool.or_eq_left_iff_imp]
    simp only [jsWhitespace,isWhitespace,List.mem_cons,List.not_mem_nil,or_false,Bool.or_eq_true,decide_eq_true_eq]
    grind
  · intro hne
    have hmark : c.toNat≠133 := hcode NEXT_LINE hne
    rw [Bool.or_eq_right_iff_imp]
    simp only [jsWhitespace,isWhitespace,List.mem_cons,List.not_mem_nil,or_false,Bool.or_eq_true,decide_eq_true_eq]
    grind

/-- Without U+FEFF, Rust keeps what both keep. -/
theorem rustDigits_eq (hmark : BYTE_ORDER_MARK∉phrase) : rustDigits phrase=digits phrase := by
  refine List.filter_congr fun c hc => ?_
  rw [(whitespace_cases c).1 fun he => hmark (he ▸ hc)]

/-- Without U+0085, JavaScript does. -/
theorem webDigits_eq (hline : NEXT_LINE∉phrase) : webDigits phrase=digits phrase := by
  refine List.filter_congr fun c hc => ?_
  rw [(whitespace_cases c).2 fun he => hline (he ▸ hc)]

/-- Rust finds 64 digits where both do, and no U+FEFF stands between. -/
theorem isHex_rust_iff : IsHex (rustDigits phrase) ↔ IsHex (digits phrase) ∧ BYTE_ORDER_MARK∉phrase := by
  constructor
  · intro hhex
    have hmark : BYTE_ORDER_MARK∉phrase := fun hmem =>
      absurd (hhex.2 _ (List.mem_filter.mpr ⟨hmem,by decide⟩)) (by decide)
    rw [← rustDigits_eq hmark]
    exact ⟨hhex,hmark⟩
  · rintro ⟨hhex,hmark⟩
    rwa [rustDigits_eq hmark]

/-- JavaScript finds them where no U+0085 does. -/
theorem isHex_web_iff : IsHex (webDigits phrase) ↔ IsHex (digits phrase) ∧ NEXT_LINE∉phrase := by
  constructor
  · intro hhex
    have hline : NEXT_LINE∉phrase := fun hmem =>
      absurd (hhex.2 _ (List.mem_filter.mpr ⟨hmem,by decide⟩)) (by decide)
    rw [← webDigits_eq hline]
    exact ⟨hhex,hline⟩
  · rintro ⟨hhex,hline⟩
    rwa [webDigits_eq hline]

/-- What Rust accepts. -/
theorem rust_accepts_iff : (∃ bytes,phraseToEntropyRust phrase=.ok bytes) ↔ IsHex (rustDigits phrase) := by
  refine ⟨fun ⟨bytes,hok⟩ => ?_,fun hhex => ?_⟩
  · by_contra hhex
    obtain ⟨e,he⟩ := rust_rejects hhex
    rw [he] at hok
    cases hok
  · obtain ⟨entropy,hok,-⟩ := rust_digits hhex
    exact ⟨_,hok⟩

/-- What the web client accepts. -/
theorem web_accepts_iff : (∃ bytes,phraseToEntropyWeb phrase=.ok bytes) ↔ IsHex (webDigits phrase) := by
  refine ⟨fun ⟨bytes,hok⟩ => ?_,fun hhex => ⟨_,web_digits hhex⟩⟩
  by_contra hhex
  obtain ⟨e,he⟩ := web_rejects hhex
  rw [he] at hok
  cases hok

/-- Digits that both find are read as the same bytes. -/
theorem same_bytes (hrust : IsHex (rustDigits phrase)) (hweb : IsHex (webDigits phrase)) :
    ∃ entropy : Fixed 32,phraseToEntropyRust phrase=.ok entropy.1 ∧ phraseToEntropyWeb phrase=.ok entropy.1 := by
  have hdigits : rustDigits phrase=webDigits phrase :=
    (rustDigits_eq ((isHex_rust_iff).mp hrust).2).trans (webDigits_eq ((isHex_web_iff).mp hweb).2).symm
  obtain ⟨entropy,hok,hbytes⟩ := rust_digits hrust
  obtain ⟨entropy',hbytes',hpairs⟩ := hrust.bytes
  have hsame : entropy'.1=entropy.1 := Option.some.inj (hbytes'.symm.trans hbytes)
  refine ⟨entropy,hok,?_⟩
  rw [web_digits hweb,← hdigits,hpairs,hsame]

/-- The parsers agree, unless 64 digits stand with one of U+0085 and U+FEFF
between them and not the other. Each accepts what is 64 digits without its own
white space, and reads the printed phrase of every entropy back. -/
theorem agree_iff (phrase : Text) :
    (Agree phrase ↔ (IsHex (digits phrase) → (NEXT_LINE∈phrase ↔ BYTE_ORDER_MARK∈phrase))) ∧
      ((∃ bytes,phraseToEntropyRust phrase=.ok bytes) ↔ IsHex (rustDigits phrase)) ∧
      ((∃ bytes,phraseToEntropyWeb phrase=.ok bytes) ↔ IsHex (webDigits phrase)) ∧
      ∀ entropy : Fixed 32,phraseToEntropyRust (entropyToPhrase entropy)=.ok entropy.1 ∧
        phraseToEntropyWeb (entropyToPhrase entropy)=.ok entropy.1 := by
  refine ⟨?_,rust_accepts_iff,web_accepts_iff,fun entropy => phraseToEntropy_respelled entropy rfl⟩
  constructor
  · rintro (⟨entropy,hrust,hweb⟩|⟨⟨e,hrust⟩,e',hweb⟩) hhex
    · have hmark := ((isHex_rust_iff).mp ((rust_accepts_iff).mp ⟨_,hrust⟩)).2
      have hline := ((isHex_web_iff).mp ((web_accepts_iff).mp ⟨_,hweb⟩)).2
      exact iff_of_false hline hmark
    · have hmark : BYTE_ORDER_MARK∈phrase := by
        by_contra hmark
        obtain ⟨bytes,hok⟩ := (rust_accepts_iff).mpr ((isHex_rust_iff).mpr ⟨hhex,hmark⟩)
        rw [hrust] at hok
        cases hok
      have hline : NEXT_LINE∈phrase := by
        by_contra hline
        obtain ⟨bytes,hok⟩ := (web_accepts_iff).mpr ((isHex_web_iff).mpr ⟨hhex,hline⟩)
        rw [hweb] at hok
        cases hok
      exact iff_of_true hline hmark
  · intro hsame
    by_cases hrust : IsHex (rustDigits phrase)
    · obtain ⟨hhex,hmark⟩ := (isHex_rust_iff).mp hrust
      have hline : NEXT_LINE∉phrase := fun hline => hmark ((hsame hhex).mp hline)
      exact .inl (same_bytes hrust ((isHex_web_iff).mpr ⟨hhex,hline⟩))
    · refine .inr ⟨rust_rejects hrust,web_rejects fun hweb => hrust ?_⟩
      obtain ⟨hhex,hline⟩ := (isHex_web_iff).mp hweb
      exact (isHex_rust_iff).mpr ⟨hhex,fun hmark => hline ((hsame hhex).mpr hmark)⟩

/-- A phrase with U+FEFF in front of it is read by the web client only. -/
theorem marked_phrase_differs : ¬∀ phrase : Text,Agree phrase := by
  intro hagree
  have hdigits : webDigits (BYTE_ORDER_MARK::List.replicate 64 '0')=List.replicate 64 '0' := by decide
  have hweb : IsHex (webDigits (BYTE_ORDER_MARK::List.replicate 64 '0')) := by
    rw [hdigits]
    exact ⟨List.length_replicate,fun c hc => List.eq_of_mem_replicate hc ▸ by decide⟩
  have hrust : ¬IsHex (rustDigits (BYTE_ORDER_MARK::List.replicate 64 '0')) := fun h => absurd h.1 (by decide)
  rcases hagree (BYTE_ORDER_MARK::List.replicate 64 '0') with ⟨entropy,hok,-⟩|⟨-,e,he⟩
  · exact hrust ((rust_accepts_iff).mp ⟨_,hok⟩)
  · obtain ⟨bytes,hok⟩ := (web_accepts_iff).mpr hweb
    rw [he] at hok
    cases hok

end Agreement

end NadSafe.PhraseAgreement
