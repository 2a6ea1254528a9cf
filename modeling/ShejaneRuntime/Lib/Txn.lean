import Mathlib.Order.Defs.Unbundled

/-!
# Transactions

A transaction reads and writes a database, draws values from its
environment (clocks, fresh identifiers) and may fail. `commit` is its
outer boundary: a failed transaction leaves the database as it was.
`Post` is partial correctness, `Yields` total correctness, and `Keeps`
says that every successful execution relates the databases before and
after it.
-/

namespace ShejaneRuntime.Lib

variable {σ τ ω ε α β γ : Type}

/-- The state of an open transaction: the database it sees and the part
of the environment it has not drawn yet. -/
structure Session (σ ω : Type) where
  db : σ
  world : ω

abbrev Txn (σ ω ε : Type) := StateT (Session σ ω) (Except ε)

namespace Txn

/-- Evaluate a query on the current database. -/
def read (f : σ → α) : Txn σ ω ε α := fun s ↦ .ok (f s.db, s)

def write (f : σ → σ) : Txn σ ω ε Unit := fun s ↦ .ok ((), { s with db := f s.db })

/-- Take the next value from the environment. -/
def draw (f : ω → α × ω) : Txn σ ω ε α := fun s ↦ .ok ((f s.world).1, { s with world := (f s.world).2 })

def fail (e : ε) : Txn σ ω ε α := fun _ ↦ .error e

/-- Fail unless a condition holds. -/
def require (c : Prop) [Decidable c] (e : ε) : Txn σ ω ε Unit := if c then pure () else fail e

/-- The value of an option, or a failure. -/
def getOr (o : Option α) (e : ε) : Txn σ ω ε α :=
  match o with
  | some a => pure a
  | none => fail e

/-- A write that a constraint of the database may refuse. -/
def attempt (f : σ → Option σ) (e : ε) : Txn σ ω ε Unit := fun s ↦
  match f s.db with
  | some db => .ok ((), { s with db := db })
  | none => .error e

/-- Perform an action only when a condition holds. -/
def when (c : Prop) [Decidable c] (m : Txn σ ω ε Unit) : Txn σ ω ε Unit := if c then m else pure ()

/-- Run to the end and keep the new database, or fail and keep the old one. -/
def commit (m : Txn σ ω ε α) (db : σ) (w : ω) : Except ε α × σ :=
  match m ⟨db, w⟩ with
  | .ok (a, s) => (.ok a, s.db)
  | .error e => (.error e, db)

/-- Run a transaction on one part of the database. -/
def zoom (part : σ → τ) (put : σ → τ → σ) (m : Txn τ ω ε α) : Txn σ ω ε α := fun s ↦
  match m ⟨part s.db, s.world⟩ with
  | .ok (a, s') => .ok (a, ⟨put s.db s'.db, s'.world⟩)
  | .error e => .error e

/-- Handle the failures a test picks, from the state before the attempt. -/
def catchIf (test : ε → Bool) (m handler : Txn σ ω ε α) : Txn σ ω ε α := fun s ↦
  match m s with
  | .ok r => .ok r
  | .error e => if test e then handler s else .error e

theorem commit_error {m : Txn σ ω ε α} {db : σ} {w : ω} {e : ε} (h : (commit m db w).1 = .error e) :
    (commit m db w).2 = db := by
  unfold commit at h ⊢
  split <;> simp_all

theorem commit_ok {m : Txn σ ω ε α} {db : σ} {w : ω} {a : α} (h : (commit m db w).1 = .ok a) :
    ∃ s, m ⟨db, w⟩ = .ok (a, s) ∧ (commit m db w).2 = s.db := by
  unfold commit at h ⊢
  split <;> simp_all

/-! ## Partial correctness -/

/-- Every successful execution from `s` ends with `Q`. -/
def Post (m : Txn σ ω ε α) (s : Session σ ω) (Q : α → Session σ ω → Prop) : Prop :=
  ∀ a s', m s = .ok (a, s') → Q a s'

section Post

variable {s : Session σ ω} {Q : α → Session σ ω → Prop}

theorem Post.mono {m : Txn σ ω ε α} {P : α → Session σ ω → Prop} (h : Post m s P)
    (hPQ : ∀ a s', P a s' → Q a s') : Post m s Q :=
  fun a s' hm ↦ hPQ a s' (h a s' hm)

theorem Post.and {m : Txn σ ω ε α} {P : α → Session σ ω → Prop} (hP : Post m s P)
    (hQ : Post m s Q) : Post m s fun a s' ↦ P a s' ∧ Q a s' :=
  fun a s' hm ↦ ⟨hP a s' hm, hQ a s' hm⟩

/-- What holds before and after every success holds after a commit. -/
theorem Post.commit {m : Txn σ ω ε α} {db : σ} {w : ω} {P : σ → Prop} (hdb : P db)
    (h : Post m ⟨db, w⟩ fun _ s ↦ P s.db) : P (commit m db w).2 := by
  cases hres : (Txn.commit m db w).1 with
  | error e =>
      rw [commit_error hres]
      exact hdb
  | ok a =>
      obtain ⟨s, hs, hs'⟩ := commit_ok hres
      rw [hs']
      exact h a s hs

/-- What cannot succeed raises and leaves the state as it was. -/
theorem commit_raises {m : Txn σ ω ε α} {db : σ} {w : ω} (h : Post m ⟨db, w⟩ fun _ _ ↦ False) :
    ∃ e, commit m db w = (.error e, db) := by
  cases hm : m ⟨db, w⟩ with
  | ok r => exact (h _ _ hm).elim
  | error e => exact ⟨e, by simp [commit, hm]⟩

@[simp] theorem post_pure (a : α) : Post (pure a : Txn σ ω ε α) s Q ↔ Q a s := by
  constructor
  · intro h
    exact h a s rfl
  · intro h a' s' hm
    cases hm
    exact h

@[simp] theorem post_fail (e : ε) : Post (fail e : Txn σ ω ε α) s Q := by
  intro a s' hm
  cases hm

@[simp] theorem post_read (f : σ → α) : Post (read f : Txn σ ω ε α) s Q ↔ Q (f s.db) s := by
  constructor
  · intro h
    exact h _ _ rfl
  · intro h a' s' hm
    cases hm
    exact h

@[simp] theorem post_draw (f : ω → α × ω) :
    Post (draw f : Txn σ ω ε α) s Q ↔ Q (f s.world).1 { s with world := (f s.world).2 } := by
  constructor
  · intro h
    exact h _ _ rfl
  · intro h a' s' hm
    cases hm
    exact h

@[simp] theorem post_write (f : σ → σ) {Q : Unit → Session σ ω → Prop} :
    Post (write f : Txn σ ω ε Unit) s Q ↔ Q () { s with db := f s.db } := by
  constructor
  · intro h
    exact h _ _ rfl
  · intro h a' s' hm
    cases hm
    exact h

@[simp] theorem post_attempt (f : σ → Option σ) (e : ε) {Q : Unit → Session σ ω → Prop} :
    Post (attempt f e : Txn σ ω ε Unit) s Q ↔ ∀ db, f s.db = some db → Q () { s with db := db } := by
  constructor
  · intro h db hdb
    exact h () _ (by simp [attempt, hdb])
  · intro h a' s' hm
    unfold attempt at hm
    split at hm
    · rename_i db hdb
      cases hm
      exact h db hdb
    · cases hm

@[simp] theorem post_bind (m : Txn σ ω ε β) (f : β → Txn σ ω ε α) :
    Post (m >>= f) s Q ↔ Post m s fun b s' ↦ Post (f b) s' Q := by
  constructor
  · intro h b s' hm a s'' hf
    apply h a s''
    change (m s >>= fun x ↦ f x.1 x.2) = _
    rw [hm]
    exact hf
  · intro h a s'' hmf
    change (m s >>= fun x ↦ f x.1 x.2) = _ at hmf
    cases hm : m s with
    | error e =>
        rw [hm] at hmf
        cases hmf
    | ok x =>
        rw [hm] at hmf
        exact h x.1 x.2 hm a s'' hmf

@[simp] theorem post_map (m : Txn σ ω ε β) (f : β → α) :
    Post (f <$> m) s Q ↔ Post m s fun b s' ↦ Q (f b) s' := by
  have hmap : f <$> m = m >>= fun b ↦ pure (f b) := map_eq_pure_bind f m
  rw [hmap, post_bind]
  simp only [post_pure]

@[simp] theorem post_ite (c : Prop) [Decidable c] (m n : Txn σ ω ε α) :
    Post (if c then m else n) s Q ↔ (c → Post m s Q) ∧ (¬c → Post n s Q) := by
  by_cases hc : c <;> simp [hc]

@[simp] theorem post_require (c : Prop) [Decidable c] (e : ε) {Q : Unit → Session σ ω → Prop} :
    Post (require c e : Txn σ ω ε Unit) s Q ↔ (c → Q () s) := by
  simp [require]

@[simp] theorem post_when (c : Prop) [Decidable c] (m : Txn σ ω ε Unit)
    {Q : Unit → Session σ ω → Prop} :
    Post (when c m) s Q ↔ (c → Post m s Q) ∧ (¬c → Q () s) := by
  simp [when]

@[simp] theorem post_getOr (o : Option α) (e : ε) :
    Post (getOr o e : Txn σ ω ε α) s Q ↔ ∀ a, o = some a → Q a s := by
  cases o <;> simp [getOr]

@[simp] theorem post_zoom (part : σ → τ) (put : σ → τ → σ) (m : Txn τ ω ε α) :
    Post (zoom part put m) s Q ↔
      Post m ⟨part s.db, s.world⟩ fun a s' ↦ Q a ⟨put s.db s'.db, s'.world⟩ := by
  constructor
  · intro h a s' hm
    exact h a _ (by simp [zoom, hm])
  · intro h a s' hm
    unfold zoom at hm
    cases hres : m ⟨part s.db, s.world⟩ with
    | error e => simp [hres] at hm
    | ok x =>
        rw [hres] at hm
        cases hm
        exact h x.1 x.2 hres

theorem post_catchIf {test : ε → Bool} {m handler : Txn σ ω ε α} (hm : Post m s Q)
    (hhandler : Post handler s Q) : Post (catchIf test m handler) s Q := by
  intro a s' h
  unfold catchIf at h
  split at h
  · rename_i r hr
    cases h
    exact hm a s' hr
  · split at h
    · exact hhandler a s' h
    · cases h

/-- The loop rule: an invariant of the remaining list and the session that
every iteration carries over to the rest of the list. -/
theorem Post.forM {f : β → Txn σ ω ε PUnit} (I : List β → Session σ ω → Prop)
    (hstep : ∀ x xs s, I (x :: xs) s → Post (f x) s fun _ s' ↦ I xs s') {xs : List β}
    {s : Session σ ω} (h : I xs s) : Post (ForM.forM xs f) s fun _ s' ↦ I [] s' := by
  induction xs generalizing s with
  | nil => simpa using h
  | cons x xs ih =>
      simp only [List.forM_cons, post_bind]
      exact (hstep x xs s h).mono fun _ s' hs' ↦ ih hs'

end Post

/-! ## Relating the databases before and after -/

/-- Every successful execution relates the database it starts from to the
database it leaves. -/
def Keeps (R : σ → σ → Prop) (m : Txn σ ω ε α) : Prop :=
  ∀ s, Post m s fun _ s' ↦ R s.db s'.db

/-- The value of `g` at the database is the same before and after. -/
abbrev Preserves (g : σ → γ) (m : Txn σ ω ε α) : Prop := Keeps (fun db db' ↦ g db' = g db) m

namespace Keeps

variable {R : σ → σ → Prop}

theorem mono {R' : σ → σ → Prop} {m : Txn σ ω ε α} (h : Keeps R m)
    (hR : ∀ db db', R db db' → R' db db') : Keeps R' m :=
  fun s ↦ (h s).mono fun _ _ ↦ hR _ _

theorem fail (e : ε) : Keeps R (fail e : Txn σ ω ε α) := fun _ ↦ post_fail e

theorem write {f : σ → σ} (h : ∀ db, R db (f db)) : Keeps R (write f : Txn σ ω ε Unit) :=
  fun s ↦ (post_write f).mpr (h s.db)

theorem attempt {f : σ → Option σ} {e : ε} (h : ∀ db db', f db = some db' → R db db') :
    Keeps R (attempt f e : Txn σ ω ε Unit) :=
  fun s ↦ (post_attempt f e).mpr fun db' hdb ↦ h s.db db' hdb

theorem ite {c : Prop} [Decidable c] {m n : Txn σ ω ε α} (hm : Keeps R m) (hn : Keeps R n) :
    Keeps R (if c then m else n) :=
  fun s ↦ (post_ite c m n).mpr ⟨fun _ ↦ hm s, fun _ ↦ hn s⟩

theorem catchIf {test : ε → Bool} {m handler : Txn σ ω ε α} (hm : Keeps R m)
    (hhandler : Keeps R handler) : Keeps R (catchIf test m handler) :=
  fun s ↦ post_catchIf (hm s) (hhandler s)

/-- A transaction on a part changes nothing else. -/
theorem zoom {R' : τ → τ → Prop} {part : σ → τ} {put : σ → τ → σ} {m : Txn τ ω ε α}
    (hm : Keeps R' m) (h : ∀ db t, R' (part db) t → R db (put db t)) : Keeps R (zoom part put m) :=
  fun s ↦ (post_zoom part put m).mpr <| (hm _).mono fun _ s' hs' ↦ h s.db s'.db hs'

theorem zoom_any {part : σ → τ} {put : σ → τ → σ} (m : Txn τ ω ε α)
    (h : ∀ db t, R db (put db t)) : Keeps R (Txn.zoom part put m) :=
  fun s ↦ (post_zoom part put m).mpr fun _ s' _ ↦ h s.db s'.db

section Refl

variable [Std.Refl R]

theorem pure (a : α) : Keeps R (pure a : Txn σ ω ε α) :=
  fun s ↦ (post_pure a).mpr (refl_of R s.db)

theorem read (f : σ → α) : Keeps R (read f : Txn σ ω ε α) :=
  fun s ↦ (post_read f).mpr (refl_of R s.db)

theorem draw (f : ω → α × ω) : Keeps R (draw f : Txn σ ω ε α) :=
  fun s ↦ (post_draw f).mpr (refl_of R s.db)

theorem require (c : Prop) [Decidable c] (e : ε) : Keeps R (require c e : Txn σ ω ε Unit) :=
  fun s ↦ (post_require c e).mpr fun _ ↦ refl_of R s.db

theorem getOr (o : Option α) (e : ε) : Keeps R (getOr o e : Txn σ ω ε α) :=
  fun s ↦ (post_getOr o e).mpr fun _ _ ↦ refl_of R s.db

theorem when {c : Prop} [Decidable c] {m : Txn σ ω ε Unit} (hm : Keeps R m) :
    Keeps R (when c m) :=
  Keeps.ite hm (Keeps.pure ())

end Refl

theorem bind [IsTrans σ R] {m : Txn σ ω ε β} {f : β → Txn σ ω ε α} (hm : Keeps R m)
    (hf : ∀ b, Keeps R (f b)) : Keeps R (m >>= f) := by
  intro s
  rw [post_bind]
  exact (hm s).mono fun b s' hs' ↦ (hf b s').mono fun _ _ ↦ trans_of R hs'

theorem map {m : Txn σ ω ε β} (f : β → α) (hm : Keeps R m) : Keeps R (f <$> m) := by
  intro s
  rw [post_map]
  exact hm s

theorem forM [Std.Refl R] [IsTrans σ R] {f : β → Txn σ ω ε PUnit} (hf : ∀ b, Keeps R (f b))
    (xs : List β) : Keeps R (ForM.forM xs f) := by
  induction xs with
  | nil => exact Keeps.pure PUnit.unit
  | cons x xs ih =>
      simp only [List.forM_cons]
      exact (hf x).bind fun _ ↦ ih

theorem mapM [Std.Refl R] [IsTrans σ R] {f : β → Txn σ ω ε α} (hf : ∀ b, Keeps R (f b))
    (xs : List β) : Keeps R (xs.mapM f) := by
  induction xs with
  | nil =>
      simp only [List.mapM_nil]
      exact Keeps.pure []
  | cons x xs ih =>
      simp only [List.mapM_cons]
      exact (hf x).bind fun _ ↦ ih.bind fun _ ↦ Keeps.pure _

/-- What is done for each element may rest on its being one. -/
theorem forM_mem [Std.Refl R] [IsTrans σ R] {f : β → Txn σ ω ε PUnit} {xs : List β}
    (hf : ∀ b ∈ xs, Keeps R (f b)) : Keeps R (ForM.forM xs f) := by
  induction xs with
  | nil => exact Keeps.pure _
  | cons x xs ih =>
      simp only [List.forM_cons]
      exact (hf x List.mem_cons_self).bind fun _ ↦ ih fun b hb ↦ hf b (List.mem_cons_of_mem x hb)

theorem mapM_mem [Std.Refl R] [IsTrans σ R] {f : β → Txn σ ω ε α} {xs : List β}
    (hf : ∀ b ∈ xs, Keeps R (f b)) : Keeps R (xs.mapM f) := by
  induction xs with
  | nil =>
      simp only [List.mapM_nil]
      exact Keeps.pure []
  | cons x xs ih =>
      simp only [List.mapM_cons]
      exact (hf x List.mem_cons_self).bind fun _ ↦
        (ih fun b hb ↦ hf b (List.mem_cons_of_mem x hb)).bind fun _ ↦ Keeps.pure _

/-- What follows a check may rest on it. -/
theorem requireThen {c : Prop} [Decidable c] {e : ε}
    {f : Unit → Txn σ ω ε α} (hf : c → Keeps R (f ())) : Keeps R (Txn.require c e >>= f) := by
  intro s
  rw [post_bind, post_require]
  exact fun hc ↦ hf hc s

theorem getOrThen {o : Option β} {e : ε} {f : β → Txn σ ω ε α}
    (hf : ∀ b, o = some b → Keeps R (f b)) : Keeps R (Txn.getOr o e >>= f) := by
  intro s
  rw [post_bind, post_getOr]
  exact fun b hb ↦ hf b hb s

/-- A committed transaction relates the databases around it, whether it
succeeds or rolls back. -/
theorem commit [Std.Refl R] {m : Txn σ ω ε α} (h : Keeps R m) (db : σ) (w : ω) :
    R db (commit m db w).2 := by
  cases hres : (Txn.commit m db w).1 with
  | error e =>
      rw [commit_error hres]
      exact refl_of R db
  | ok a =>
      obtain ⟨s, hs, hdb⟩ := commit_ok hres
      rw [hdb]
      exact h ⟨db, w⟩ a s hs

end Keeps

/-- What holds before holds after. -/
def Stays (P : σ → Prop) (db db' : σ) : Prop := P db → P db'

instance staysRefl (P : σ → Prop) : Std.Refl (Stays P) := ⟨fun _ h ↦ h⟩

instance staysTrans (P : σ → Prop) : IsTrans σ (Stays P) := ⟨fun _ _ _ h h' hP ↦ h' (h hP)⟩

instance preservesRefl (g : σ → γ) : Std.Refl fun db db' : σ ↦ g db' = g db := ⟨fun _ ↦ rfl⟩

instance preservesTrans (g : σ → γ) : IsTrans σ fun db db' ↦ g db' = g db :=
  ⟨fun _ _ _ h h' ↦ h'.trans h⟩

/-- What is computed from preserved data is preserved. -/
theorem Preserves.of {g : σ → γ} {δ : Type} {k : σ → δ} {m : Txn σ ω ε α} (h : Preserves g m)
    (hk : ∀ db db', g db' = g db → k db' = k db) : Preserves k m :=
  Keeps.mono h hk

/-! ## Total correctness -/

/-- Execution from `s` succeeds and ends with `Q`. -/
def Yields (m : Txn σ ω ε α) (s : Session σ ω) (Q : α → Session σ ω → Prop) : Prop :=
  ∃ a s', m s = .ok (a, s') ∧ Q a s'

section Yields

variable {s : Session σ ω} {Q : α → Session σ ω → Prop}

theorem Yields.mono {m : Txn σ ω ε α} {P : α → Session σ ω → Prop} (h : Yields m s P)
    (hPQ : ∀ a s', P a s' → Q a s') : Yields m s Q := by
  obtain ⟨a, s', hm, hP⟩ := h
  exact ⟨a, s', hm, hPQ a s' hP⟩

@[simp] theorem yields_pure (a : α) : Yields (pure a : Txn σ ω ε α) s Q ↔ Q a s := by
  constructor
  · rintro ⟨a', s', hm, hQ⟩
    cases hm
    exact hQ
  · intro h
    exact ⟨a, s, rfl, h⟩

@[simp] theorem yields_read (f : σ → α) : Yields (read f : Txn σ ω ε α) s Q ↔ Q (f s.db) s := by
  constructor
  · rintro ⟨a', s', hm, hQ⟩
    cases hm
    exact hQ
  · intro h
    exact ⟨_, _, rfl, h⟩

@[simp] theorem yields_draw (f : ω → α × ω) :
    Yields (draw f : Txn σ ω ε α) s Q ↔ Q (f s.world).1 { s with world := (f s.world).2 } := by
  constructor
  · rintro ⟨a', s', hm, hQ⟩
    cases hm
    exact hQ
  · intro h
    exact ⟨_, _, rfl, h⟩

@[simp] theorem yields_write (f : σ → σ) {Q : Unit → Session σ ω → Prop} :
    Yields (write f : Txn σ ω ε Unit) s Q ↔ Q () { s with db := f s.db } := by
  constructor
  · rintro ⟨a', s', hm, hQ⟩
    cases hm
    exact hQ
  · intro h
    exact ⟨_, _, rfl, h⟩

@[simp] theorem yields_fail (e : ε) : ¬Yields (fail e : Txn σ ω ε α) s Q := by
  rintro ⟨a, s', hm, _⟩
  cases hm

@[simp] theorem yields_attempt (f : σ → Option σ) (e : ε) {Q : Unit → Session σ ω → Prop} :
    Yields (attempt f e : Txn σ ω ε Unit) s Q ↔ ∃ db, f s.db = some db ∧ Q () { s with db := db } := by
  constructor
  · rintro ⟨a', s', hm, hQ⟩
    unfold attempt at hm
    split at hm
    · rename_i db hdb
      cases hm
      exact ⟨db, hdb, hQ⟩
    · cases hm
  · rintro ⟨db, hdb, hQ⟩
    exact ⟨(), _, by simp [attempt, hdb], hQ⟩

@[simp] theorem yields_bind (m : Txn σ ω ε β) (f : β → Txn σ ω ε α) :
    Yields (m >>= f) s Q ↔ Yields m s fun b s' ↦ Yields (f b) s' Q := by
  constructor
  · rintro ⟨a, s'', hmf, hQ⟩
    change (m s >>= fun x ↦ f x.1 x.2) = _ at hmf
    cases hm : m s with
    | error e =>
        rw [hm] at hmf
        cases hmf
    | ok x =>
        rw [hm] at hmf
        exact ⟨x.1, x.2, hm, a, s'', hmf, hQ⟩
  · rintro ⟨b, s', hm, a, s'', hf, hQ⟩
    refine ⟨a, s'', ?_, hQ⟩
    change (m s >>= fun x ↦ f x.1 x.2) = _
    rw [hm]
    exact hf

@[simp] theorem yields_zoom (part : σ → τ) (put : σ → τ → σ) (m : Txn τ ω ε α) :
    Yields (zoom part put m) s Q ↔
      Yields m ⟨part s.db, s.world⟩ fun a s' ↦ Q a ⟨put s.db s'.db, s'.world⟩ := by
  constructor
  · rintro ⟨a, s', hm, hQ⟩
    unfold zoom at hm
    cases hres : m ⟨part s.db, s.world⟩ with
    | error e => simp [hres] at hm
    | ok x =>
        rw [hres] at hm
        cases hm
        exact ⟨x.1, x.2, hres, hQ⟩
  · rintro ⟨a, s', hm, hQ⟩
    exact ⟨a, _, by simp [zoom, hm], hQ⟩

@[simp] theorem yields_ite (c : Prop) [Decidable c] (m n : Txn σ ω ε α) :
    Yields (if c then m else n) s Q ↔ (c → Yields m s Q) ∧ (¬c → Yields n s Q) := by
  by_cases hc : c <;> simp [hc]

@[simp] theorem yields_require (c : Prop) [Decidable c] (e : ε) {Q : Unit → Session σ ω → Prop} :
    Yields (require c e : Txn σ ω ε Unit) s Q ↔ c ∧ Q () s := by
  by_cases hc : c <;> simp [require, hc]

@[simp] theorem yields_when (c : Prop) [Decidable c] (m : Txn σ ω ε Unit)
    {Q : Unit → Session σ ω → Prop} :
    Yields (when c m) s Q ↔ (c → Yields m s Q) ∧ (¬c → Q () s) := by
  simp [when]

@[simp] theorem yields_getOr (o : Option α) (e : ε) :
    Yields (getOr o e : Txn σ ω ε α) s Q ↔ ∃ a, o = some a ∧ Q a s := by
  cases o <;> simp [getOr]

end Yields

/-! ## Errors -/

/-- Every error the transaction raises from `s` meets `E`. -/
def Raises (m : Txn σ ω ε α) (s : Session σ ω) (E : ε → Prop) : Prop :=
  ∀ e, m s = .error e → E e

section Raises

variable {s : Session σ ω} {E : ε → Prop}

theorem Raises.commit {m : Txn σ ω ε α} {db : σ} {w : ω} (h : Raises m ⟨db, w⟩ E) {e : ε} {db' : σ}
    (hcommit : Txn.commit m db w = (.error e, db')) : E e := by
  unfold Txn.commit at hcommit
  cases hm : m ⟨db, w⟩ with
  | ok r =>
      rw [hm] at hcommit
      cases hcommit
  | error e' =>
      rw [hm] at hcommit
      cases hcommit
      exact h _ hm

@[simp] theorem raises_pure (a : α) : Raises (pure a : Txn σ ω ε α) s E := by rintro _ ⟨⟩

@[simp] theorem raises_read (f : σ → α) : Raises (read f : Txn σ ω ε α) s E := by rintro _ ⟨⟩

@[simp] theorem raises_draw (f : ω → α × ω) : Raises (draw f : Txn σ ω ε α) s E := by rintro _ ⟨⟩

@[simp] theorem raises_write (f : σ → σ) : Raises (write f : Txn σ ω ε Unit) s E := by
  rintro _ ⟨⟩

@[simp] theorem raises_attempt (f : σ → Option σ) (e : ε) :
    Raises (attempt f e : Txn σ ω ε Unit) s E ↔ (f s.db = none → E e) := by
  constructor
  · intro h hnone
    exact h e (by simp [attempt, hnone])
  · intro h e' hm
    unfold attempt at hm
    split at hm
    · cases hm
    · rename_i hnone
      cases hm
      exact h hnone

@[simp] theorem raises_bind (m : Txn σ ω ε β) (f : β → Txn σ ω ε α) :
    Raises (m >>= f) s E ↔ Raises m s E ∧ Post m s fun b s' ↦ Raises (f b) s' E := by
  constructor
  · intro h
    refine ⟨fun e hm ↦ h e ?_, fun b s' hm e hf ↦ h e ?_⟩
    · change (m s >>= fun x ↦ f x.1 x.2) = _
      rw [hm]
      rfl
    · change (m s >>= fun x ↦ f x.1 x.2) = _
      rw [hm]
      exact hf
  · rintro ⟨hm, hf⟩ e hmf
    change (m s >>= fun x ↦ f x.1 x.2) = _ at hmf
    cases hms : m s with
    | error e' =>
        rw [hms] at hmf
        cases hmf
        exact hm _ hms
    | ok x =>
        rw [hms] at hmf
        exact hf x.1 x.2 hms e hmf

@[simp] theorem raises_require (c : Prop) [Decidable c] (e : ε) :
    Raises (require c e : Txn σ ω ε Unit) s E ↔ (¬c → E e) := by
  unfold require
  split
  · simp_all
  · rename_i hc
    constructor
    · intro h _
      exact h e rfl
    · intro h e' he
      cases he
      exact h hc

@[simp] theorem raises_when (c : Prop) [Decidable c] (m : Txn σ ω ε Unit) :
    Raises (when c m) s E ↔ (c → Raises m s E) := by
  unfold when
  split <;> simp_all

@[simp] theorem raises_getOr (o : Option α) (e : ε) :
    Raises (getOr o e : Txn σ ω ε α) s E ↔ (o = none → E e) := by
  cases o with
  | none =>
      constructor
      · intro h _
        exact h e rfl
      · intro h e' he
        cases he
        exact h rfl
  | some a =>
      constructor
      · rintro _ ⟨⟩
      · rintro _ _ ⟨⟩

@[simp] theorem raises_zoom (part : σ → τ) (put : σ → τ → σ) (m : Txn τ ω ε α) :
    Raises (zoom part put m) s E ↔ Raises m ⟨part s.db, s.world⟩ E := by
  constructor
  · intro h e hm
    exact h e (by simp [zoom, hm])
  · intro h e hm
    unfold zoom at hm
    split at hm
    · cases hm
    · rename_i e' hm'
      cases hm
      exact h _ hm'

end Raises

end Txn

end ShejaneRuntime.Lib
