import LineCensus.Schema.Scalar
import LineCensus.Proofs.Table
import LineCensus.Proofs.Text.Letter

namespace LineCensus.Schema

open Text

/-!
# Fields read without issues

* `field_of_get?`, `fieldOr_of_get?`, `fieldOr_of_none` — a field with the value of its first key,
  and a field that is left out.
* `list_map` — a list of values each of which is read.
* `text_text`, `version_text`, `count_ofNat` — single values.
* `Reads` — what is read and under which condition; `Reads.both`, `Reads.map`, `Reads.field`,
  `Reads.list` put such conditions together.
* `Gives` — what holds of everything that is read; `Gives.both`, `Gives.map`, `Gives.field`,
  `Gives.list` follow the parts of a record.
-/

variable {α β τ : Type}

/-! ### Fields -/

section Fields

variable [Spelled τ] [DecidableEq τ]

/-- The first key counts if it has a value. -/
theorem firstOf?_of_get? {t : Table (Value τ) τ} {key : String} {v : Value τ}
    (h : t.get? (Spelled.ofString key) = some v)
    (keys : List String) : firstOf? t (key :: keys) = some (key, v) := by
  rw [firstOf?, h]

/-- A field is read from the value under its first key. -/
theorem field_of_get? {t : Table (Value τ) τ} {key : String} {keys : List String} {v : Value τ}
    {read : Value τ → Checked α} {a : α} (h : t.get? (Spelled.ofString key) = some v)
    (hr : read v = .ok a) :
    field t (key :: keys) read = .ok a := by
  rw [field, firstOf?_of_get? h]
  exact congrArg (within (.key key)) hr

/-- So is a field with a default. -/
theorem fieldOr_of_get? {t : Table (Value τ) τ} {key : String} {keys : List String} {v : Value τ}
    {read : Value τ → Checked α} {default a : α} (h : t.get? (Spelled.ofString key) = some v)
    (hr : read v = .ok a) :
    fieldOr t (key :: keys) default read = .ok a := by
  rw [fieldOr, firstOf?_of_get? h]
  exact congrArg (within (.key key)) hr

/-- A field that is left out has its default. -/
theorem fieldOr_of_none {t : Table (Value τ) τ} {keys : List String} (h : firstOf? t keys = none)
    (default : α) (read : Value τ → Checked α) : fieldOr t keys default read = .ok default := by
  rw [fieldOr, h]

end Fields

/-! ### Lists -/

/-- Items that were written one by one are read one by one. -/
theorem eachFrom_map {read : α → Checked β} {write : β → α} {bs : List β}
    (h : ∀ b ∈ bs, read (write b) = .ok b) (n : Nat) :
    eachFrom read n (bs.map write) = .ok bs := by
  induction bs generalizing n with
  | nil => rfl
  | cons b bs ih =>
    have hb := h b List.mem_cons_self
    have hbs := ih (fun c hc => h c (List.mem_cons_of_mem b hc)) (n + 1)
    rw [List.map_cons, eachFrom, hb, hbs]
    rfl

/-- Items that are each read as what they were written for make a list of those. -/
theorem list_map {read : Value τ → Checked β} {write : β → Value τ} {bs : List β}
    (h : ∀ b ∈ bs, read (write b) = .ok b) : list read (.list (bs.map write)) = .ok bs :=
  eachFrom_map h 0

/-! ### Single values -/

theorem text_text (s : τ) : text (.text s) = .ok s := rfl

/-- A version is read from its text. -/
theorem version_text [Spelled τ] {s : String} (h : isVersion s.toList = true) :
    version (.text (Spelled.ofString s : τ)) = .ok s := by
  rw [version, plainText, string?_ofString]
  exact if_pos h

/-- No number of things is out of bounds. -/
theorem count_ofNat [Spelled τ] (n : Nat) : count (.int (n : Int) : Value τ) = .ok n := by
  have hbound : ¬(n : Int) < (0 : Nat) := by omega
  rw [count, integerFrom, integer]
  simp only [hbound, if_false, Int.toNat_natCast]

/-- Naming an error in another way makes it no success. -/
theorem mapError_eq_ok {ε ε' : Type} {f : ε → ε'} {x : Except ε α} {a : α} :
    x.mapError f = .ok a ↔ x = .ok a := by
  cases x <;> simp [Except.mapError]

/-! ### Reading under a condition -/

/-- The result is the value `a` if `p` holds, and it is no value otherwise. -/
def Reads {ε : Type} (x : Except ε α) (a : α) (p : Prop) : Prop := ∀ b, x = .ok b ↔ b = a ∧ p

section Reads

variable {ε : Type} {p q : Prop} {a : α} {b : β}

/-- What is known to give a value gives it. -/
theorem Reads.of_eq {x : Except ε α} (h : x = .ok a) : Reads x a True := by
  intro c
  rw [h, Except.ok.injEq, and_true, eq_comm]

/-- The condition may be put in other words. -/
theorem Reads.congr {x : Except ε α} (h : Reads x a p) (hpq : p ↔ q) : Reads x a q := by
  intro c
  rw [h c, hpq]

/-- What is wrong where nothing is read does not matter. -/
theorem Reads.of_ok_iff {ε' : Type} {x : Except ε α} {y : Except ε' α} (h : Reads x a p)
    (hxy : ∀ b, y = .ok b ↔ x = .ok b) : Reads y a p := by
  intro c
  rw [hxy c, h c]

/-- Errors of another kind are errors. -/
theorem Reads.mapError {ε' : Type} {x : Except ε α} (h : Reads x a p) (f : ε → ε') :
    Reads (x.mapError f) a p :=
  h.of_ok_iff fun _ => mapError_eq_ok

/-- Under the condition, the value is given. -/
theorem Reads.eq_ok {x : Except ε α} (h : Reads x a p) (hp : p) : x = .ok a := (h a).2 ⟨rfl, hp⟩

/-- Two steps give a value if both do. -/
theorem Reads.bind {x : Except ε α} {y : α → Except ε β} (hx : Reads x a p)
    (hy : Reads (y a) b q) :
    Reads (match x with | .error e => .error e | .ok a => y a) b (p ∧ q) := by
  intro c
  cases x with
  | error e =>
    -- Nothing was read, so the first condition does not hold.
    have hp : ¬ p := fun hp => by cases (hx a).2 ⟨rfl, hp⟩
    simp [hp]
  | ok a' =>
    obtain ⟨rfl, hp⟩ := (hx a').1 rfl
    simp only [hp, true_and]
    exact hy c

/-- The value may be changed. -/
theorem Reads.map {x : Except ε α} (hx : Reads x a p) (f : α → β) :
    Reads (x.map f) (f a) p := by
  have h := hx.bind (y := fun a => .ok (f a)) (Reads.of_eq rfl)
  cases x <;> exact h.congr (and_iff_left trivial)

/-- A pair is given if both of its halves are. -/
theorem Reads.both {x : Checked α} {y : Checked β} (hx : Reads x a p) (hy : Reads y b q) :
    Reads (Schema.both x y) (a, b) (p ∧ q) := by
  intro c
  cases x with
  | error d =>
    have hp : ¬ p := fun hp => by cases (hx a).2 ⟨rfl, hp⟩
    cases y <;> simp [Schema.both, hp]
  | ok a' =>
    obtain ⟨rfl, hp⟩ := (hx a').1 rfl
    cases y with
    | error e =>
      have hq : ¬ q := fun hq => by cases (hy b).2 ⟨rfl, hq⟩
      simp [Schema.both, hq]
    | ok b' =>
      obtain ⟨rfl, hq⟩ := (hy b').1 rfl
      simp [Schema.both, hp, hq, eq_comm]

/-- A value is given from inside a table or a list as from outside. -/
theorem Reads.within {x : Checked α} (hx : Reads x a p) (step : Step) :
    Reads (Schema.within step x) a p := by
  intro c
  cases x with
  | error e => simpa [Schema.within] using hx c
  | ok a' => exact hx c

/-- A field is read as the value of its first key is. -/
theorem Reads.field [Spelled τ] [DecidableEq τ] {t : Table (Value τ) τ} {key : String} {v : Value τ}
    {read : Value τ → Checked α}
    (h : t.get? (Spelled.ofString key) = some v) (hr : Reads (read v) a p) (keys : List String) :
    Reads (Schema.field t (key :: keys) read) a p := by
  rw [Schema.field, firstOf?_of_get? h]
  exact hr.within _

/-- A list is read if all its items are. -/
theorem Reads.list {read : Value τ → Checked β} {write : α → Value τ} {f : α → β} {P : α → Prop}
    {as : List α} (h : ∀ a ∈ as, Reads (read (write a)) (f a) (P a)) :
    Reads (Schema.list read (.list (as.map write))) (as.map f) (∀ a ∈ as, P a) := by
  suffices ∀ n, Reads (eachFrom read n (as.map write)) (as.map f) (∀ a ∈ as, P a) from this 0
  intro n
  induction as generalizing n with
  | nil => exact (Reads.of_eq rfl).congr (by simp)
  | cons a as ih =>
    have ha := (h a List.mem_cons_self).within (.index n)
    have has := ih (fun c hc => h c (List.mem_cons_of_mem a hc)) (n + 1)
    rw [List.map_cons, eachFrom]
    exact ((ha.both has).map _).congr (by rw [List.forall_mem_cons])

end Reads

/-! ### Properties of what is read -/

/-- Whatever is read has the property. -/
def Gives {ε : Type} (x : Except ε α) (P : α → Prop) : Prop := ∀ a, x = .ok a → P a

section Gives

variable {ε : Type} {P : α → Prop} {Q : β → Prop}

/-- Anything that is read is something. -/
theorem Gives.trivial (x : Except ε α) : Gives x fun _ => True := fun _ _ => True.intro

/-- What is given may be known by a weaker property. -/
theorem Gives.imp {P' : α → Prop} {x : Except ε α} (h : Gives x P) (himp : ∀ a, P a → P' a) :
    Gives x P' :=
  fun a ha => himp a (h a ha)

/-- What is read is what is read. -/
theorem Gives.self (x : Except ε α) : Gives x fun a => x = .ok a := fun _ ha => ha

/-- A changed value has a property if it had it after the change. -/
theorem Gives.map {x : Except ε α} {f : α → β} (h : Gives x fun a => Q (f a)) :
    Gives (x.map f) Q := by
  intro b hb
  cases x with
  | error e => cases hb
  | ok a =>
    cases hb
    exact h a rfl

/-- A second step gives what it gives for all that the first one may give. -/
theorem Gives.bind {x : Except ε α} {f : α → Except ε β} (hx : Gives x P)
    (hf : ∀ a, P a → Gives (f a) Q) : Gives (x >>= f) Q := by
  intro b hb
  cases x with
  | error e => cases hb
  | ok a => exact hf a (hx a rfl) b hb

/-- Each item of a list gives what all of them are known to give. -/
theorem Gives.mapM {f : α → Except ε β} {as : List α} (h : ∀ a ∈ as, Gives (f a) Q) :
    Gives (as.mapM f) fun bs => ∀ b ∈ bs, Q b := by
  induction as with
  | nil =>
    intro bs hbs
    cases hbs
    exact List.forall_mem_nil Q
  | cons a as ih =>
    rw [List.forall_mem_cons] at h
    rw [List.mapM_cons]
    refine h.1.bind fun b hb => (ih h.2).bind fun bs hbs => ?_
    intro cs hcs
    cases hcs
    exact List.forall_mem_cons.2 ⟨hb, hbs⟩

/-- A pair has the properties of its halves. -/
theorem Gives.both {x : Checked α} {y : Checked β} (hx : Gives x P) (hy : Gives y Q) :
    Gives (Schema.both x y) fun p => P p.1 ∧ Q p.2 := by
  intro p hp
  cases x with
  | error d => cases y <;> cases hp
  | ok a =>
    cases y with
    | error e => cases hp
    | ok b =>
      cases hp
      exact ⟨hx a rfl, hy b rfl⟩

/-- Inside a table or a list the same is given. -/
theorem Gives.within {x : Checked α} (h : Gives x P) (step : Step) :
    Gives (Schema.within step x) P := by
  intro a ha
  cases x with
  | error e => cases ha
  | ok b => exact h a ha

/-- What is found under one of the keys is an entry of the table. -/
theorem mem_of_firstOf? [Spelled τ] [DecidableEq τ] {t : Table (Value τ) τ} {keys : List String}
    {e : String × Value τ}
    (h : firstOf? t keys = some e) :
    (Spelled.ofString e.1, e.2) ∈ t := by
  induction keys with
  | nil => cases h
  | cons k ks ih =>
    rw [firstOf?] at h
    cases hk : t.get? (Spelled.ofString k) with
    | none =>
      rw [hk] at h
      exact ih h
    | some v =>
      rw [hk] at h
      cases h
      exact Table.mem_of_get? hk

/-- What is gathered has the property of its parts. -/
theorem Gives.gather {cs : List (Checked α)} (h : ∀ c ∈ cs, Gives c P) :
    Gives (Schema.gather cs) fun as => ∀ a ∈ as, P a := by
  induction cs with
  | nil =>
    intro as has
    cases has
    exact List.forall_mem_nil P
  | cons c cs ih =>
    rw [List.forall_mem_cons] at h
    exact ((h.1.both (ih h.2)).imp fun p hp => List.forall_mem_cons.2 hp).map

/-- A field has what is read from any value of the table. -/
theorem Gives.field [Spelled τ] [DecidableEq τ] {t : Table (Value τ) τ} {read : Value τ → Checked α}
    (h : ∀ e ∈ t, Gives (read e.2) P) (keys : List String) :
    Gives (Schema.field t keys read) P := by
  rw [Schema.field]
  cases hfirst : firstOf? t keys with
  | none => exact fun a ha => by cases ha
  | some e => exact (h _ (mem_of_firstOf? hfirst)).within (.key e.1)

/-- So have the items that are read, whatever the number of the first one. -/
theorem Gives.eachFrom {read : α → Checked β} {as : List α} (h : ∀ a ∈ as, Gives (read a) Q)
    (n : Nat) : Gives (Schema.eachFrom read n as) fun bs => ∀ b ∈ bs, Q b := by
  induction as generalizing n with
  | nil =>
    intro bs hbs
    cases hbs
    exact List.forall_mem_nil Q
  | cons a as ih =>
    have hhead := (h a List.mem_cons_self).within (.index n)
    have htail := ih (fun c hc => h c (List.mem_cons_of_mem a hc)) (n + 1)
    exact ((hhead.both htail).imp fun p hp => List.forall_mem_cons.2 hp).map

/-- A version that is read is a version. -/
theorem gives_version [Spelled τ] (v : Value τ) :
    Gives (version v) fun s => isVersion s.toList = true := by
  intro s hs
  unfold version at hs
  split at hs
  · cases hs
  · split at hs
    · next hversion =>
      cases hs
      exact hversion
    · cases hs

end Gives

end LineCensus.Schema
