import Mathlib.Data.List.Basic

/-! # Dotted quads

The texts of IPv4 addresses in ASCII: four decimal numbers of at most 255, without leading zeros,
with dots between them. `inet_pton` reads one character by one, with the numbers that are complete
and the one it is in. It accepts the texts of the quads and nothing else, and returns the quad
(`inet_pton_eq_some_iff`). -/

namespace C11Http.Lib.DottedQuad

/-- A number in decimal digits. -/
def decimal (n : ℕ) : List UInt8 :=
  if n < 10 then [UInt8.ofNat (48 + n)] else decimal (n / 10) ++ [UInt8.ofNat (48 + n % 10)]

/-- Numbers with a dot behind each. -/
def dotted (ns : List ℕ) : List UInt8 := ns.flatMap fun n => decimal n ++ [46]

structure Quad where
  a : UInt8
  b : UInt8
  c : UInt8
  d : UInt8
  deriving DecidableEq

def Quad.bytes (q : Quad) : List UInt8 := [q.a, q.b, q.c, q.d]

/-- `a.b.c.d`. -/
def Quad.text (q : Quad) : List UInt8 :=
  dotted [q.a.toNat, q.b.toNat, q.c.toNat] ++ decimal q.d.toNat

/-- The value of a digit. -/
def digit (ch : UInt8) : Option ℕ :=
  if 48 ≤ ch.toNat ∧ ch.toNat ≤ 57 then some (ch.toNat - 48) else none

/-- `octets` are complete, and `current` is being read. A number that begins with a zero is over
with it. -/
def scan : List UInt8 → List ℕ → Option ℕ → Option (List ℕ)
  | [], octets, some v => if octets.length = 3 then some (octets ++ [v]) else none
  | [], _, none => none
  | ch :: src, octets, current =>
    match digit ch, current with
    | some d, none => scan src octets (some d)
    | some d, some v =>
      if v ≠ 0 ∧ v * 10 + d ≤ 255 then scan src octets (some (v * 10 + d)) else none
    | none, some v =>
      if ch = 46 ∧ octets.length < 3 then scan src (octets ++ [v]) none else none
    | none, none => none

/-- `inet_pton` for `AF_INET`: the four bytes of the address. -/
def inet_pton (src : List UInt8) : Option (List UInt8) :=
  (scan src [] none).map fun octets => octets.map UInt8.ofNat

/-! ### Digits -/

theorem digit_ofNat {d : ℕ} (h : d < 10) : digit (UInt8.ofNat (48 + d)) = some d := by
  have hval : (UInt8.ofNat (48 + d)).toNat = 48 + d := UInt8.toNat_ofNat_of_lt' (by
    show 48 + d < 256
    omega)
  unfold digit
  rw [hval, if_pos (by omega)]
  congr 1
  omega

theorem digit_some {ch : UInt8} {d : ℕ} (h : digit ch = some d) :
    d < 10 ∧ ch = UInt8.ofNat (48 + d) := by
  unfold digit at h
  split_ifs at h with hrange
  cases h
  refine ⟨by omega, ?_⟩
  have hval : 48 + (ch.toNat - 48) = ch.toNat := by omega
  rw [hval, UInt8.ofNat_toNat]

theorem decimal_of_lt {n : ℕ} (h : n < 10) : decimal n = [UInt8.ofNat (48 + n)] := by
  rw [decimal, if_pos h]

/-- One more digit. -/
theorem decimal_append {v d : ℕ} (hv : v ≠ 0) (hd : d < 10) :
    decimal (v * 10 + d) = decimal v ++ [UInt8.ofNat (48 + d)] := by
  have hdiv : (v * 10 + d) / 10 = v := by omega
  have hmod : (v * 10 + d) % 10 = d := by omega
  rw [decimal, if_neg (by omega), hdiv, hmod]

theorem zero_notMem_decimal (n : ℕ) : 0 ∉ decimal n := by
  have hne : ∀ d < 10, (0 : UInt8) ≠ UInt8.ofNat (48 + d) := by decide
  induction n using decimal.induct with
  | case1 n hlt =>
    rw [decimal_of_lt hlt, List.mem_singleton]
    exact hne n hlt
  | case2 n hge ih =>
    rw [decimal, if_neg hge, List.mem_append, List.mem_singleton, not_or]
    exact ⟨ih, hne _ (Nat.mod_lt n (by decide))⟩

/-- No character of a text ends a string. -/
theorem zero_notMem_text (q : Quad) : 0 ∉ q.text := by
  unfold Quad.text dotted
  simp [zero_notMem_decimal]

/-! ### One character -/

variable {ch : UInt8} {d v : ℕ}

theorem scan_first (h : digit ch = some d) (src : List UInt8) (octets : List ℕ) :
    scan (ch :: src) octets none = scan src octets (some d) := by
  simp only [scan, h]

theorem scan_digit (h : digit ch = some d) (src : List UInt8) (octets : List ℕ) :
    scan (ch :: src) octets (some v) =
      if v ≠ 0 ∧ v * 10 + d ≤ 255 then scan src octets (some (v * 10 + d)) else none := by
  simp only [scan, h]

theorem scan_dot (h : digit ch = none) (src : List UInt8) (octets : List ℕ) :
    scan (ch :: src) octets (some v) =
      if ch = 46 ∧ octets.length < 3 then scan src (octets ++ [v]) none else none := by
  simp only [scan, h]

theorem scan_stray (h : digit ch = none) (src : List UInt8) (octets : List ℕ) :
    scan (ch :: src) octets none = none := by
  simp only [scan, h]

/-! ### What is accepted -/

/-- **A number is read to its end.** -/
theorem scan_decimal (octets : List ℕ) {n : ℕ} (hn : n ≤ 255) (src : List UInt8) :
    scan (decimal n ++ src) octets none = scan src octets (some n) := by
  induction n using decimal.induct generalizing src with
  | case1 n hlt =>
    rw [decimal_of_lt hlt, List.singleton_append, scan_first (digit_ofNat hlt)]
  | case2 n hge ih =>
    have hsplit : decimal n = decimal (n / 10) ++ [UInt8.ofNat (48 + n % 10)] := by
      rw [decimal, if_neg hge]
    have hval : n / 10 * 10 + n % 10 = n := by omega
    rw [hsplit, List.append_assoc, List.singleton_append, ih (by omega),
      scan_digit (digit_ofNat (Nat.mod_lt n (by decide))), hval, if_pos (by omega)]

theorem scan_dotted : ∀ (ns octets : List ℕ) (src : List UInt8), (∀ n ∈ ns, n ≤ 255) →
    octets.length + ns.length ≤ 3 →
    scan (dotted ns ++ src) octets none = scan src (octets ++ ns) none
  | [], octets, src, _, _ => by rw [List.append_nil]; rfl
  | n :: ns, octets, src, hle, hlen => by
    rw [List.length_cons] at hlen
    have hdot : digit 46 = none := by decide
    have hcons : dotted (n :: ns) = decimal n ++ 46 :: dotted ns := by
      unfold dotted
      rw [List.flatMap_cons, List.append_assoc, List.singleton_append]
    rw [hcons, List.append_assoc, List.cons_append, scan_decimal octets (hle n List.mem_cons_self),
      scan_dot hdot, if_pos ⟨rfl, by omega⟩, scan_dotted ns (octets ++ [n]) src
        (fun m hm => hle m (List.mem_cons_of_mem n hm)) (by simp; omega), List.append_assoc,
      List.singleton_append]

theorem inet_pton_text (q : Quad) : inet_pton q.text = some q.bytes := by
  have hle : ∀ x : UInt8, x.toNat ≤ 255 := fun x => by
    have := x.toNat_lt
    omega
  have hscan : scan q.text [] none =
      some [q.a.toNat, q.b.toNat, q.c.toNat, q.d.toNat] := by
    unfold Quad.text
    rw [scan_dotted _ [] _ (by simp [hle]) (by simp), ← List.append_nil (decimal q.d.toNat),
      scan_decimal _ (hle q.d)]
    rfl
  unfold inet_pton
  rw [hscan]
  simp [Quad.bytes]

/-! ### Nothing else is accepted -/

/-- **What has been read is the text of what is returned**, up to the place of the scan. -/
theorem scan_sound : ∀ (src : List UInt8) (octets : List ℕ) (current : Option ℕ) (os : List ℕ),
    (∀ n ∈ octets, n ≤ 255) → (∀ v ∈ current, v ≤ 255) → scan src octets current = some os →
    ∃ ns n, os = ns ++ [n] ∧ ns.length = 3 ∧ (∀ m ∈ os, m ≤ 255) ∧
      dotted octets ++ current.elim [] decimal ++ src = dotted ns ++ decimal n
  | [], octets, none, os, _, _, h => by cases h
  | [], octets, some v, os, hle, hcur, h => by
    rw [scan] at h
    split_ifs at h with hlen
    cases h
    refine ⟨octets, v, rfl, hlen, fun m hm => ?_, by simp⟩
    rcases List.mem_append.mp hm with hm | hm
    · exact hle m hm
    · exact hcur m (by rw [List.mem_singleton.mp hm]; rfl)
  | ch :: src, octets, current, os, hle, hcur, h => by
    cases hd : digit ch with
    | some d =>
      obtain ⟨hlt, rfl⟩ := digit_some hd
      cases current with
      | none =>
        rw [scan_first hd] at h
        obtain ⟨ns, n, hos, hlen, hall, htext⟩ := scan_sound src octets (some d) os hle
          (fun v hv => by cases hv; omega) h
        refine ⟨ns, n, hos, hlen, hall, ?_⟩
        rw [← htext, Option.elim_none, Option.elim_some, decimal_of_lt hlt]
        simp
      | some v =>
        rw [scan_digit hd] at h
        split_ifs at h with hok
        obtain ⟨ns, n, hos, hlen, hall, htext⟩ := scan_sound src octets (some (v * 10 + d)) os hle
          (fun w hw => by cases hw; exact hok.2) h
        refine ⟨ns, n, hos, hlen, hall, ?_⟩
        rw [← htext, Option.elim_some, Option.elim_some, decimal_append hok.1 hlt]
        simp
    | none =>
      cases current with
      | none =>
        rw [scan_stray hd] at h
        cases h
      | some v =>
        rw [scan_dot hd] at h
        split_ifs at h with hok
        obtain ⟨rfl, -⟩ := hok
        have hle' : ∀ n ∈ octets ++ [v], n ≤ 255 := by
          intro n hn
          rcases List.mem_append.mp hn with hn | hn
          · exact hle n hn
          · exact hcur n (by rw [List.mem_singleton.mp hn]; rfl)
        obtain ⟨ns, n, hos, hlen, hall, htext⟩ := scan_sound src (octets ++ [v]) none os hle'
          (fun w hw => by cases hw) h
        refine ⟨ns, n, hos, hlen, hall, ?_⟩
        rw [← htext]
        simp [dotted]

/-- **Exactly the texts of the quads are accepted**, each as its own. -/
theorem inet_pton_eq_some_iff {src bytes : List UInt8} :
    inet_pton src = some bytes ↔ ∃ q : Quad, src = q.text ∧ bytes = q.bytes := by
  constructor
  · intro h
    obtain ⟨os, hos, rfl⟩ := Option.map_eq_some_iff.mp h
    obtain ⟨ns, n, rfl, hlen, hall, htext⟩ := scan_sound src [] none os
      (fun _ hn => by cases hn) (fun _ hv => by cases hv) hos
    obtain ⟨a, b, c, rfl⟩ := List.length_eq_three.mp hlen
    have hval : ∀ m ∈ [a, b, c] ++ [n], (UInt8.ofNat m).toNat = m := fun m hm =>
      UInt8.toNat_ofNat_of_lt' (by
        show m < 256
        have := hall m hm
        omega)
    refine ⟨⟨.ofNat a, .ofNat b, .ofNat c, .ofNat n⟩, ?_, rfl⟩
    unfold Quad.text
    rw [hval a (by simp), hval b (by simp), hval c (by simp), hval n (by simp)]
    exact htext
  · rintro ⟨q, rfl, rfl⟩
    exact inet_pton_text q

end C11Http.Lib.DottedQuad
