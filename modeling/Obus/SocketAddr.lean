import Obus.Buffer

/-!
# Socket addresses

`obus_socket_addr_init_from_string` on every string.  It goes by the prefix of the string and by its
last `:`, but what its checks find is lost: it returns 0 whatever is around that `:`, and a path
that is too long is cut.  It is right about a string exactly if nothing is overlooked so
(`socket_addr_right_iff`).

`inet_pton` is a parameter, one function for each family.  `atoi` is the one of the GNU C library,
which takes a number that no `long` can hold for the next one that it can hold, and cuts the `long`
to an `int`.  Allocations succeed.
-/

namespace Obus.SocketAddr

/-- A string without its NUL. -/
abbrev Text := List UInt8

/-- `sizeof(sun_path)`. -/
def sunPathSize : ℕ := 108

/-- The address families. -/
inductive Family where
  | inet | inet6 | unix
  deriving DecidableEq

/-- `struct obus_socket_addr`: the members of the address structures of the three families, as
bytes. -/
structure Addr where
  family : Family
  sinPort : List UInt8 := [0, 0]
  sinAddr : List UInt8 := List.replicate 4 0
  sin6Port : List UInt8 := [0, 0]
  sin6Addr : List UInt8 := List.replicate 16 0
  sunPath : List UInt8 := List.replicate sunPathSize 0
  name : Option Text := none
  deriving DecidableEq

/-- The prefix `inet:`. -/
def inetPrefix : Text := [105, 110, 101, 116, 58]

/-- The prefix `inet6:`. -/
def inet6Prefix : Text := [105, 110, 101, 116, 54, 58]

/-- The prefix `unix:`. -/
def unixPrefix : Text := [117, 110, 105, 120, 58]

/-- The character `:`. -/
def colon : UInt8 := 58

/-- The character `@`. -/
def atSign : UInt8 := 64

/-- The table `families`. -/
def families : List (Text × Family) :=
  [(inetPrefix, .inet), (inet6Prefix, .inet6), (unixPrefix, .unix)]

/-- The loop over the table: the family whose prefix a string has, and what remains of the string.
-/
def findFamily (s : Text) : List (Text × Family) → Option (Family × Text)
  | [] => none
  | (pre, family) :: l =>
    if pre.isPrefixOf s then some (family, s.drop pre.length) else findFamily s l

/-- `strrchr`: what is before the last occurrence of a character, and what is behind it. -/
def strrchr (c : UInt8) : Text → Option (Text × Text)
  | [] => none
  | b :: s =>
    match strrchr c s with
    | some (l, r) => some (b :: l, r)
    | none => if b = c then some ([], s) else none

/-- `isspace`. -/
def isSpace (b : UInt8) : Bool := b = 32 || (9 ≤ b && b ≤ 13)

/-- `isdigit`. -/
def isDigit (b : UInt8) : Bool := 48 ≤ b && b ≤ 57

/-- The number that decimal digits denote. -/
def decimal (s : Text) : ℕ := s.foldl (fun n b => 10 * n + (b.toNat - 48)) 0

/-- `strtol` to the base 10. -/
def strtol (s : Text) : ℤ :=
  let value : ℤ :=
    match s.dropWhile isSpace with
    | 45 :: s => -(decimal (s.takeWhile isDigit) : ℤ)
    | 43 :: s => decimal (s.takeWhile isDigit)
    | s => decimal (s.takeWhile isDigit)
  max (-2 ^ 63) (min (2 ^ 63 - 1) value)

/-- `atoi`. -/
def atoi (s : Text) : ℤ := Int.bmod (strtol s) (2 ^ 32)

/-- `htons((uint16_t)x)`, as the bytes in memory. -/
def htons (x : ℤ) : List UInt8 := bigEndian 2 (x % 2 ^ 16).toNat

section Functions

variable (pton4 pton6 : Text → Option (List UInt8))

/-- What happens to an address of the family `AF_INET`: the status of the checks is not that of the
function. -/
def initInet (addr : Addr) (strAddr port : Text) : Addr :=
  let addr := { addr with sinPort := htons (atoi port) }
  if addr.sinPort = [0, 0] then addr
  else
    match pton4 strAddr with
    | none => addr
    | some a => { addr with sinAddr := a }

/-- The same for the family `AF_INET6`. -/
def initInet6 (addr : Addr) (strAddr port : Text) : Addr :=
  let addr := { addr with sin6Port := htons (atoi port) }
  if addr.sin6Port = [0, 0] then addr
  else
    match pton6 strAddr with
    | none => addr
    | some a => { addr with sin6Addr := a }

/-- `snprintf` into cleared memory of `sun_path`: what does not fit with its NUL is left out. -/
def printPath (path : Text) : List UInt8 :=
  let printed := path.take (sunPathSize - 1)
  printed ++ List.replicate (sunPathSize - printed.length) 0

/-- A leading `@` becomes 0. -/
def abstractPath : List UInt8 → List UInt8
  | [] => []
  | b :: s => (if b = atSign then 0 else b) :: s

/-- `obus_socket_addr_init_from_string`. -/
def initFromString (name : Text) : Except Errno Addr :=
  match findFamily name families with
  | none => .error .einval
  | some (.inet, remain) =>
    match strrchr colon remain with
    | none => .error .einval
    | some (strAddr, port) =>
      .ok { initInet pton4 { family := .inet } strAddr port with name := some name }
  | some (.inet6, remain) =>
    match strrchr colon remain with
    | none => .error .einval
    | some (strAddr, port) =>
      .ok { initInet6 pton6 { family := .inet6 } strAddr port with name := some name }
  | some (.unix, remain) =>
    .ok { family := .unix, sunPath := abstractPath (printPath remain), name := some name }

/-! ## What a string denotes -/

/-- A decimal number between 1 and 65535, and nothing else. -/
structure PortText (p : Text) (v : ℕ) : Prop where
  nonempty : p ≠ []
  digits : ∀ b ∈ p, isDigit b
  value : decimal p = v
  pos : 1 ≤ v
  lt : v ≤ 65535

/-- Where a socket can be: its address and port, or its path. -/
inductive Endpoint where
  | inet (addr : List UInt8) (port : ℕ)
  | inet6 (addr : List UInt8) (port : ℕ)
  | unix (path : Text)

/-- The strings that name an endpoint. -/
def Endpoint.Named : Endpoint → Text → Prop
  | .inet addr port, s =>
    ∃ t p, s = inetPrefix ++ t ++ colon :: p ∧ pton4 t = some addr ∧ PortText p port
  | .inet6 addr port, s =>
    ∃ t p, s = inet6Prefix ++ t ++ colon :: p ∧ pton6 t = some addr ∧ PortText p port
  | .unix path, s => s = unixPrefix ++ path ∧ path.length < sunPathSize

/-- An address is that of an endpoint: the port in network byte order, the path with its NULs, where
a leading `@` means the abstract namespace. -/
def Endpoint.Stored : Endpoint → Addr → Prop
  | .inet a port, addr => addr.family = .inet ∧ addr.sinAddr = a ∧ addr.sinPort = bigEndian 2 port
  | .inet6 a port, addr =>
    addr.family = .inet6 ∧ addr.sin6Addr = a ∧ addr.sin6Port = bigEndian 2 port
  | .unix path, addr => addr.family = .unix ∧
      addr.sunPath = abstractPath (path ++ List.replicate (sunPathSize - path.length) 0)

/-- The function is right about a string: it accepts it exactly if it names an endpoint, and stores
that one then. -/
structure Right (s : Text) : Prop where
  accepts : (∃ addr, initFromString pton4 pton6 s = .ok addr) ↔
  ∃ e : Endpoint, e.Named pton4 pton6 s
  stores : ∀ addr, initFromString pton4 pton6 s = .ok addr → ∃ e : Endpoint, e.Named pton4 pton6 s ∧
  e.Stored addr

/-- What is around a separator is an address that the recogniser of its family knows, and a port. -/
def Separates (pton : Text → Option (List UInt8)) (strAddr port : Text) : Prop :=
  pton strAddr ≠ none ∧ ∃ v, PortText port v

/-- Nothing about a string is overlooked: if it has the prefix `inet:` or `inet6:` and a separator,
then what is around the last one is as it should be, and if it has the prefix `unix:`, then the rest
fits in `sun_path`. -/
def Checked (s : Text) : Prop :=
  match findFamily s families with
  | none => True
  | some (.inet, remain) => ∀ t p, strrchr colon remain = some (t, p) → Separates pton4 t p
  | some (.inet6, remain) => ∀ t p, strrchr colon remain = some (t, p) → Separates pton6 t p
  | some (.unix, remain) => remain.length < sunPathSize

end Functions

/-! ## Separators and ports -/

lemma strrchr_eq_none {c : UInt8} {s : Text} : strrchr c s = none ↔ c ∉ s := by
  induction s with
  | nil => exact iff_of_true rfl List.not_mem_nil
  | cons b s ih =>
    rw [strrchr, List.mem_cons, not_or, ← ih]
    cases hrest : strrchr c s with
    | some p => exact iff_of_false (fun h => nomatch h) fun h => nomatch h.2
    | none =>
      dsimp only
      split
      · next heq => exact iff_of_false (fun h => nomatch h) fun h => h.1 heq.symm
      · next hne => exact iff_of_true rfl ⟨fun heq => hne heq.symm, rfl⟩

/-- The last occurrence of a character is the one with no other behind it. -/
lemma strrchr_eq_some {c : UInt8} {s l r : Text} : strrchr c s = some (l, r) ↔ s = l ++ c :: r ∧
    c ∉ r := by
  induction s generalizing l r with
  | nil =>
    refine iff_of_false (fun h => nomatch h) fun h => ?_
    exact List.append_ne_nil_of_right_ne_nil l (List.cons_ne_nil c r) h.1.symm
  | cons b s ih =>
    rw [strrchr]
    cases hrest : strrchr c s with
    | some p =>
      obtain ⟨l', r'⟩ := p
      obtain ⟨hs, hr'⟩ := ih.mp hrest
      constructor
      · intro h
        cases h
        exact ⟨by rw [hs, List.cons_append], hr'⟩
      · rintro ⟨heq, hr⟩
        cases l with
        | nil =>
          cases heq
          exact absurd (hs ▸ List.mem_append_right l' List.mem_cons_self) hr
        | cons b' l =>
          rw [List.cons_append] at heq
          cases heq
          have hsame := ih.mpr ⟨rfl, hr⟩
          rw [hrest] at hsame
          cases hsame
          rfl
    | none =>
      have hnot := strrchr_eq_none.mp hrest
      dsimp only
      by_cases hb : b = c
      · rw [if_pos hb]
        constructor
        · intro h
          cases h
          exact ⟨by rw [hb, List.nil_append], hnot⟩
        · rintro ⟨heq, -⟩
          cases l with
          | nil =>
            cases heq
            rfl
          | cons b' l =>
            rw [List.cons_append] at heq
            cases heq
            exact absurd (List.mem_append_right l List.mem_cons_self) hnot
      · rw [if_neg hb]
        refine iff_of_false (fun h => nomatch h) ?_
        rintro ⟨heq, -⟩
        cases l with
        | nil =>
          cases heq
          exact hb rfl
        | cons b' l =>
          rw [List.cons_append] at heq
          cases heq
          exact hnot (List.mem_append_right l List.mem_cons_self)

namespace PortText

variable {p : Text} {v : ℕ}

/-- A port has no separator in it. -/
lemma colon_not_mem (h : PortText p v) : colon ∉ p :=
  fun hmem => absurd (h.digits colon hmem) (by decide)

lemma digit_not_space {b : UInt8} (hb : isDigit b) : isSpace b = false ∧ b ≠ 45 ∧ b ≠ 43 := by
  simp only [isDigit, Bool.and_eq_true, decide_eq_true_eq, UInt8.le_iff_toNat_le] at hb
  obtain ⟨hlow, hhigh⟩ := hb
  have hlow : 48 ≤ b.toNat := hlow
  have hhigh : b.toNat ≤ 57 := hhigh
  refine ⟨?_, fun heq => ?_, fun heq => ?_⟩
  · simp only [isSpace, Bool.or_eq_false_iff, decide_eq_false_iff_not, Bool.and_eq_false_iff,
      UInt8.le_iff_toNat_le]
    refine ⟨fun heq => ?_, Or.inr fun hle => ?_⟩
    · rw [heq] at hlow
      exact absurd hlow (by decide)
    · have hle : b.toNat ≤ 13 := hle
      omega
  · rw [heq] at hlow
    exact absurd hlow (by decide)
  · rw [heq] at hlow
    exact absurd hlow (by decide)

lemma strtol_eq (h : PortText p v) : strtol p = v := by
  obtain ⟨b, s, rfl⟩ := List.exists_cons_of_ne_nil h.nonempty
  obtain ⟨hspace, hminus, hplus⟩ := digit_not_space (h.digits b List.mem_cons_self)
  have htake : (b :: s).takeWhile isDigit = b :: s := List.takeWhile_eq_self_iff.mpr h.digits
  have hv := h.lt
  have hvalue : decimal (b :: s) = v := h.value
  rw [strtol, List.dropWhile_cons_of_neg (by rw [hspace]; exact Bool.false_ne_true)]
  split
  · next heq => exact absurd (List.cons.inj heq).1 hminus
  · next heq => exact absurd (List.cons.inj heq).1 hplus
  · rw [htake, hvalue]
    omega

/-- The port is stored in network byte order, and is not 0. -/
lemma htons_eq (h : PortText p v) : htons (atoi p) = bigEndian 2 v ∧ htons (atoi p) ≠ [0, 0] := by
  have hpos := h.pos
  have hlt := h.lt
  have hatoi : atoi p = v := by
    rw [atoi, h.strtol_eq, Int.bmod_eq_of_le (by omega) (by omega)]
  have hbytes : htons (atoi p) = bigEndian 2 v := by
    rw [htons, hatoi]
    congr 1
    omega
  refine ⟨hbytes, fun hzero => ?_⟩
  have hback : ofBigEndian (bigEndian 2 v) = v := ofBigEndian_bigEndian_of_lt (by omega)
  rw [← hbytes, hzero] at hback
  have hnone : ofBigEndian [0, 0] = 0 := rfl
  omega

end PortText

/-! ## Strings and endpoints -/

section Endpoints

variable {pton pton4 pton6 : Text → Option (List UInt8)} {s remain : Text} {f : Family}

/-- The prefix of a family. -/
def Family.pre : Family → Text
  | .inet => inetPrefix
  | .inet6 => inet6Prefix
  | .unix => unixPrefix

lemma findFamily_pre (family : Family) (remain : Text) :
    findFamily (family.pre ++ remain) families = some (family, remain) := by
  cases family <;> rfl

lemma eq_of_findFamily (h : findFamily s families = some (f, remain)) : s = f.pre ++ remain := by
  have hloop : ∀ l : List (Text × Family), (∀ x ∈ l, x.1 = x.2.pre) →
      findFamily s l = some (f, remain) →
      s = f.pre ++ remain := by
    intro l hl hfind
    induction l with
    | nil => cases hfind
    | cons x l ih =>
      obtain ⟨pre, f'⟩ := x
      rw [findFamily] at hfind
      split at hfind
      · next hpre =>
        cases hfind
        have hsame : pre = f.pre := hl _ List.mem_cons_self
        rw [← hsame]
        exact (List.prefix_iff_eq_append.mp (List.isPrefixOf_iff_prefix.mp hpre)).symm
      · exact ih (fun y hy => hl y (List.mem_cons_of_mem _ hy)) hfind
  exact hloop families (by decide) h

/-- The family of an endpoint. -/
def Endpoint.family : Endpoint → Family
  | .inet _ _ => .inet
  | .inet6 _ _ => .inet6
  | .unix _ => .unix

/-- What remains of a string that names an endpoint, behind its prefix. -/
def Endpoint.NamedBy (pton4 pton6 : Text → Option (List UInt8)) : Endpoint → Text → Prop
  | .inet addr port, remain =>
    ∃ t p, remain = t ++ colon :: p ∧ pton4 t = some addr ∧ PortText p port
  | .inet6 addr port, remain =>
    ∃ t p, remain = t ++ colon :: p ∧ pton6 t = some addr ∧ PortText p port
  | .unix path, remain => remain = path ∧ path.length < sunPathSize

lemma Endpoint.named_iff {e : Endpoint} :
    e.Named pton4 pton6 s ↔ ∃ remain, findFamily s families = some (e.family, remain) ∧
    e.NamedBy pton4 pton6 remain := by
  constructor
  · intro h
    cases e with
    | inet a port =>
      obtain ⟨t, p, rfl, hrest⟩ := h
      exact ⟨t ++ colon :: p, by rw [List.append_assoc]; exact findFamily_pre .inet _, t, p,
        rfl, hrest⟩
    | inet6 a port =>
      obtain ⟨t, p, rfl, hrest⟩ := h
      exact ⟨t ++ colon :: p, by rw [List.append_assoc]; exact findFamily_pre .inet6 _, t, p,
        rfl, hrest⟩
    | unix path =>
      obtain ⟨rfl, hlength⟩ := h
      exact ⟨path, findFamily_pre .unix path, rfl, hlength⟩
  · rintro ⟨remain, hfind, hnamed⟩
    have hs := eq_of_findFamily hfind
    cases e with
    | inet a port =>
      obtain ⟨t, p, rfl, hrest⟩ := hnamed
      exact ⟨t, p, by rw [hs, List.append_assoc]; rfl, hrest⟩
    | inet6 a port =>
      obtain ⟨t, p, rfl, hrest⟩ := hnamed
      exact ⟨t, p, by rw [hs, List.append_assoc]; rfl, hrest⟩
    | unix path =>
      obtain ⟨rfl, hlength⟩ := hnamed
      exact ⟨hs, hlength⟩

/-- What is around the last separator decides whether there is an address with a port. -/
lemma exists_named_iff : (∃ a v t p, remain = t ++ colon :: p ∧ pton t = some a ∧ PortText p v) ↔
    ∃ t p, strrchr colon remain = some (t, p) ∧ Separates pton t p := by
  constructor
  · rintro ⟨a, v, t, p, hremain, ha, hport⟩
    refine ⟨t, p, strrchr_eq_some.mpr ⟨hremain, hport.colon_not_mem⟩, ?_, v, hport⟩
    rw [ha]
    exact Option.some_ne_none a
  · rintro ⟨t, p, hsplit, ha, v, hport⟩
    obtain ⟨a, ha⟩ := Option.ne_none_iff_exists'.mp ha
    exact ⟨a, v, t, p, (strrchr_eq_some.mp hsplit).1, ha, hport⟩

/-- Only an endpoint of its family is named by a string. -/
lemma exists_named_of_family (hfind : findFamily s families = some (f, remain)) :
    (∃ e : Endpoint, e.Named pton4 pton6 s) ↔ ∃ e : Endpoint, e.family = f ∧
    e.NamedBy pton4 pton6 remain := by
  refine exists_congr fun e => ?_
  rw [Endpoint.named_iff]
  constructor
  · rintro ⟨remain', hfind', hnamed⟩
    rw [hfind] at hfind'
    cases hfind'
    exact ⟨rfl, hnamed⟩
  · rintro ⟨hfamily, hnamed⟩
    exact ⟨remain, by rw [hfamily, hfind], hnamed⟩

lemma exists_inet_iff : (∃ e : Endpoint, e.family = .inet ∧ e.NamedBy pton4 pton6 remain) ↔
    ∃ t p, strrchr colon remain = some (t, p) ∧ Separates pton4 t p := by
  rw [← exists_named_iff]
  constructor
  · rintro ⟨e, hfamily, hnamed⟩
    cases e with
    | inet a v => exact ⟨a, v, hnamed⟩
    | inet6 a v => cases hfamily
    | unix path => cases hfamily
  · rintro ⟨a, v, hnamed⟩
    exact ⟨.inet a v, rfl, hnamed⟩

lemma exists_inet6_iff : (∃ e : Endpoint, e.family = .inet6 ∧ e.NamedBy pton4 pton6 remain) ↔
    ∃ t p, strrchr colon remain = some (t, p) ∧ Separates pton6 t p := by
  rw [← exists_named_iff]
  constructor
  · rintro ⟨e, hfamily, hnamed⟩
    cases e with
    | inet a v => cases hfamily
    | inet6 a v => exact ⟨a, v, hnamed⟩
    | unix path => cases hfamily
  · rintro ⟨a, v, hnamed⟩
    exact ⟨.inet6 a v, rfl, hnamed⟩

lemma exists_unix_iff : (∃ e : Endpoint, e.family = .unix ∧ e.NamedBy pton4 pton6 remain) ↔
    remain.length < sunPathSize := by
  constructor
  · rintro ⟨e, hfamily, hnamed⟩
    cases e with
    | inet a v => cases hfamily
    | inet6 a v => cases hfamily
    | unix path =>
      obtain ⟨rfl, hlength⟩ := hnamed
      exact hlength
  · exact fun hlength => ⟨.unix remain, rfl, rfl, hlength⟩

/-- What is around a separator decides for one of the first two families. -/
lemma separates_iff {t p : Text} (hsplit : strrchr colon remain = some (t, p)) :
    (∃ t p, strrchr colon remain = some (t, p) ∧ Separates pton t p) ↔ Separates pton t p := by
  constructor
  · rintro ⟨t', p', hsplit', hsep⟩
    rw [hsplit] at hsplit'
    cases hsplit'
    exact hsep
  · exact fun hsep => ⟨t, p, hsplit, hsep⟩

/-- Right about a string that is refused. -/
lemma right_of_error {e : Errno} (herror : initFromString pton4 pton6 s = .error e)
    (hno : ¬∃ e : Endpoint, e.Named pton4 pton6 s) : Right pton4 pton6 s where
  accepts := by
    refine iff_of_false ?_ hno
    rintro ⟨addr, hok⟩
    rw [herror] at hok
    cases hok
  stores addr hok := by
    rw [herror] at hok
    cases hok

/-- Right about a string that is accepted exactly if it names an endpoint, when that one is stored.
-/
lemma right_iff_of_ok {addr : Addr} (hok : initFromString pton4 pton6 s = .ok addr)
    (hstored : (∃ e : Endpoint, e.Named pton4 pton6 s) → ∃ e : Endpoint, e.Named pton4 pton6 s ∧
      e.Stored addr) :
    Right pton4 pton6 s ↔ ∃ e : Endpoint, e.Named pton4 pton6 s := by
  constructor
  · exact fun h => h.accepts.mp ⟨addr, hok⟩
  · intro hnamed
    refine ⟨iff_of_true ⟨addr, hok⟩ hnamed, fun addr' hok' => ?_⟩
    rw [hok] at hok'
    cases hok'
    exact hstored hnamed

/-- The two families with a port: the string is refused without a separator, and accepted with one.
-/
lemma right_iff_separates
    (hnamed : (∃ e : Endpoint, e.Named pton4 pton6 s) ↔ ∃ t p, strrchr colon remain = some (t, p) ∧
      Separates pton t p)
    (herror : strrchr colon remain = none → initFromString pton4 pton6 s = .error .einval)
    (hok : ∀ t p, strrchr colon remain = some (t, p) → ∃ addr, initFromString pton4 pton6 s =
      .ok addr ∧
      (Separates pton t p → ∃ e : Endpoint, e.Named pton4 pton6 s ∧ e.Stored addr)) :
    Right pton4 pton6 s ↔ ∀ t p, strrchr colon remain = some (t, p) → Separates pton t p := by
  cases hsplit : strrchr colon remain with
  | none =>
    refine iff_of_true (right_of_error (herror hsplit) fun hex => ?_) fun t p h => by cases h
    obtain ⟨t, p, hsplit', -⟩ := hnamed.mp hex
    rw [hsplit] at hsplit'
    cases hsplit'
  | some x =>
    obtain ⟨t, p⟩ := x
    obtain ⟨addr, hrun, hstored⟩ := hok t p hsplit
    rw [separates_iff hsplit] at hnamed
    rw [right_iff_of_ok hrun fun hex => hstored (hnamed.mp hex), hnamed]
    constructor
    · intro hsep t' p' heq
      cases heq
      exact hsep
    · exact fun h => h t p rfl

lemma right_iff_inet (hfind : findFamily s families = some (.inet, remain)) :
    Right pton4 pton6 s ↔ ∀ t p, strrchr colon remain = some (t, p) → Separates pton4 t p := by
  have hs := eq_of_findFamily hfind
  refine right_iff_separates ((exists_named_of_family hfind).trans exists_inet_iff)
    (fun hsplit => ?_) fun t p hsplit => ?_
  · rw [initFromString, hfind]
    simp only [hsplit]
  · refine ⟨_, by rw [initFromString, hfind]; simp only [hsplit]; rfl, ?_⟩
    rintro ⟨ha, v, hport⟩
    obtain ⟨a, ha⟩ := Option.ne_none_iff_exists'.mp ha
    obtain ⟨hbytes, hne⟩ := hport.htons_eq
    refine ⟨.inet a v, ⟨t, p, ?_, ha, hport⟩, ?_⟩
    · rw [hs, (strrchr_eq_some.mp hsplit).1, List.append_assoc]
      rfl
    · simp only [initInet, if_neg hne, ha]
      exact ⟨rfl, rfl, hbytes⟩

lemma right_iff_inet6 (hfind : findFamily s families = some (.inet6, remain)) :
    Right pton4 pton6 s ↔ ∀ t p, strrchr colon remain = some (t, p) → Separates pton6 t p := by
  have hs := eq_of_findFamily hfind
  refine right_iff_separates ((exists_named_of_family hfind).trans exists_inet6_iff)
    (fun hsplit => ?_) fun t p hsplit => ?_
  · rw [initFromString, hfind]
    simp only [hsplit]
  · refine ⟨_, by rw [initFromString, hfind]; simp only [hsplit]; rfl, ?_⟩
    rintro ⟨ha, v, hport⟩
    obtain ⟨a, ha⟩ := Option.ne_none_iff_exists'.mp ha
    obtain ⟨hbytes, hne⟩ := hport.htons_eq
    refine ⟨.inet6 a v, ⟨t, p, ?_, ha, hport⟩, ?_⟩
    · rw [hs, (strrchr_eq_some.mp hsplit).1, List.append_assoc]
      rfl
    · simp only [initInet6, if_neg hne, ha]
      exact ⟨rfl, rfl, hbytes⟩

lemma right_iff_unix (hfind : findFamily s families = some (.unix, remain)) :
    Right pton4 pton6 s ↔ remain.length < sunPathSize := by
  have hs := eq_of_findFamily hfind
  have hnamed : (∃ e : Endpoint, e.Named pton4 pton6 s) ↔ remain.length < sunPathSize :=
    (exists_named_of_family hfind).trans exists_unix_iff
  have hrun : initFromString pton4 pton6 s =
      .ok { family := .unix, sunPath := abstractPath (printPath remain), name := some s } := by
    rw [initFromString, hfind]
  rw [right_iff_of_ok hrun fun hex => ?_, hnamed]
  have hlength := hnamed.mp hex
  refine ⟨.unix remain, ⟨hs, hlength⟩, rfl, ?_⟩
  have htake : remain.take (sunPathSize - 1) = remain :=
    List.take_of_length_le (Nat.le_sub_one_of_lt hlength)
  change abstractPath (printPath remain) = _
  rw [printPath, htake]

end Endpoints

/-- For every string, a status of 0 tells that it names an endpoint, and this endpoint is stored,
exactly if nothing about the string is overlooked. -/
theorem socket_addr_right_iff (pton4 pton6 : Text → Option (List UInt8)) (name : CString) :
    Right pton4 pton6 name.1 ↔ Checked pton4 pton6 name.1 := by
  cases hfind : findFamily name.1 families with
  | none =>
    rw [Checked, hfind]
    refine iff_of_true (right_of_error (by rw [initFromString, hfind]) ?_) trivial
    rintro ⟨e, hnamed⟩
    obtain ⟨remain, hfind', -⟩ := Endpoint.named_iff.mp hnamed
    rw [hfind] at hfind'
    cases hfind'
  | some x =>
    obtain ⟨f, remain⟩ := x
    rw [Checked, hfind]
    cases f with
    | inet => exact right_iff_inet hfind
    | inet6 => exact right_iff_inet6 hfind
    | unix => exact right_iff_unix hfind

/-- The text `127.0.0.1`. -/
def localhost : Text := [49, 50, 55, 46, 48, 46, 48, 46, 49]

/-- The text `http`. -/
def httpText : Text := [104, 116, 116, 112]

/-- The address that a recogniser knows as `127.0.0.1`. -/
def knowsLocalhost (s : Text) : Option (List UInt8) :=
  if s = localhost then some [127, 0, 0, 1] else none

/-- The string `inet:127.0.0.1:http` is accepted, and the port 0 is stored. -/
theorem socket_addr_without_port :
    ∃ addr, initFromString knowsLocalhost (fun _ => none)
      (CString.ofBytes (inetPrefix ++ localhost ++ colon :: httpText)).1 =
      .ok addr ∧ addr.sinPort = [0, 0] ∧
      ¬Right knowsLocalhost (fun _ => none)
        (CString.ofBytes (inetPrefix ++ localhost ++ colon :: httpText)).1 := by
  have hfind : findFamily (CString.ofBytes (inetPrefix ++ localhost ++ colon :: httpText)).1
      families =
      some (.inet, localhost ++ colon :: httpText) := by decide
  have hsplit : strrchr colon (localhost ++ colon :: httpText) = some (localhost, httpText) := by
    decide
  refine ⟨{ family := .inet, name := some (inetPrefix ++ localhost ++ colon :: httpText) },
    by decide, rfl, fun h => ?_⟩
  obtain ⟨-, v, hport⟩ := (right_iff_inet hfind).mp h localhost httpText hsplit
  exact absurd (hport.digits 104 List.mem_cons_self) (by decide)

end Obus.SocketAddr
