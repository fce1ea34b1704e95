import Mathlib.Logic.Function.Basic
import Amlnf.Lib.Act
import Amlnf.Lib.Idr

set_option relaxedAutoImplicit false
set_option autoImplicit false

/-!
# The device table

`aml_ntdcore.c`: devices are registered in a table that gives each of them a number, taken out of
it again, and looked up by address, number or name. Other callers count their uses of a device.

## Main definitions

* `NtdInfo`, `NtdSt` — a device, and the table with the memory of the devices.
* `addNtdDevice`, `delNtdDevice` — registering and unregistering.
* `NtdSt.visited` — the devices `ntd_for_each_device` runs over.
* `getNtdDevice`, `getNtdDeviceNm` — the lookups.
* `NtdRun` — a run of calls, with what each returned.

## Main results

* `mem_visited` — every registered device is visited.
* `lookup_exact_iff` — when a lookup is exact.
* `table_exact` — the table after a run.

## Design

Addresses of devices are an arbitrary type. `ntd_table_mutex` is held throughout every function,
so a call is one step. `try_module_get` succeeds; the results of the hooks of a device are ignored
by the source. The macro `ntd_for_each_device` takes an argument and does not use it: it runs with
whatever variable is called `ntd`, so that the variable its callers look at stays `NULL`.
-/

namespace Amlnf

open Act

variable {δ : Type} [DecidableEq δ]

/-! ## Devices and the table -/

/-- `struct ntd_info`, as far as the table uses it. -/
structure NtdInfo where
  name : String
  pagesize : ℕ
  index : ℕ
  usecount : ℤ

/-- The table, the memory of the devices, and `ntd_init_available`. -/
structure NtdSt (δ : Type) where
  idr : Idr δ
  dev : δ → NtdInfo
  initAvailable : ℤ

/-- The state before the first call. -/
def NtdSt.start (dev : δ → NtdInfo) : NtdSt δ := ⟨.empty, dev, 1⟩

/-- A device is in the table. -/
def NtdSt.Registered (s : NtdSt δ) (d : δ) : Prop := ∃ i, s.idr.find i = some d

/-- Every device of the table is there at its own index. -/
def NtdSt.Wf (s : NtdSt δ) : Prop := ∀ i d, s.idr.find i = some d → (s.dev d).index = i

/-- Change the memory of a device. -/
def NtdSt.setDev (s : NtdSt δ) (d : δ) (g : NtdInfo → NtdInfo) : NtdSt δ :=
  { s with dev := Function.update s.dev d (g (s.dev d)) }

lemma NtdSt.setDev_dev_self (s : NtdSt δ) (d : δ) (g : NtdInfo → NtdInfo) :
    (s.setDev d g).dev d = g (s.dev d) := Function.update_self _ _ _

lemma NtdSt.setDev_dev_of_ne (s : NtdSt δ) {d e : δ} (h : e ≠ d) (g : NtdInfo → NtdInfo) :
    (s.setDev d g).dev e = s.dev e := Function.update_of_ne h _ _

/-! ## Registering -/

/-- What the calls of `add_ntd_device` into the kernel end with. -/
structure AddOutcome where
  /-- `idr_alloc` gives a number. -/
  alloc : Bool
  /-- `init_ntd` returns zero. -/
  init : Bool
  /-- `device_register` returns zero. -/
  register : Bool
  deriving DecidableEq

/-- `add_ntd_device`: the class is initialised with the first device. When that fails, the entry of
the device is not taken out. -/
def addNtdDevice (o : AddOutcome) (d : δ) : Act (NtdSt δ) ℤ := do
  let s ← get
  if (s.dev d).pagesize = 0 then
    hang
  else if ¬o.alloc then
    pure 1
  else
    let i := s.idr.free
    modify fun s => { s.setDev d fun x => { x with index := i, usecount := 0 } with
      idr := s.idr.alloc d }
    -- `atomic_dec_and_test`, and `atomic_inc` when the result is not zero
    let first := s.initAvailable - 1 = 0
    when first (modify fun s => { s with initAvailable := s.initAvailable - 1 })
    if first ∧ ¬o.init then
      pure 1
    else if ¬o.register then
      modify fun s => { s with idr := s.idr.remove i }
      pure 1
    else
      pure 0

/-- `ENODEV`. -/
def eNODEV : ℤ := 19

/-- `EBUSY`. -/
def eBUSY : ℤ := 16

/-- `del_ntd_device`. -/
def delNtdDevice (d : δ) : Act (NtdSt δ) ℤ := do
  let s ← get
  if s.idr.find (s.dev d).index ≠ some d then
    pure (-eNODEV)
  else if (s.dev d).usecount ≠ 0 then
    pure (-eBUSY)
  else
    modify fun s => { s with idr := s.idr.remove (s.dev d).index }
    pure 0

/-! ## Lookups -/

/-- The devices a loop of `ntd_for_each_device` runs over, from the number `i` on: each is
followed by the one behind its own index. -/
def NtdSt.visitFrom (s : NtdSt δ) : ℕ → ℕ → List δ
  | 0, _ => []
  | n + 1, i =>
    match s.idr.next i with
    | none => []
    | some d => d :: s.visitFrom n ((s.dev d).index + 1)

/-- The devices a loop of `ntd_for_each_device` runs over. Each has a larger index than the one
before, so there are no more of them than numbers in the table. -/
def NtdSt.visited (s : NtdSt δ) : List δ := s.visitFrom (s.idr.slots.length + 1) 0

/-- `__get_ntd_device`. -/
def getNtdDevice' (d : δ) : Act (NtdSt δ) (Except ℤ δ) := do
  modify fun s => s.setDev d fun x => { x with usecount := x.usecount + 1 }
  pure (.ok d)

/-- `get_ntd_device`. The search by address compares the devices with `other`, which the loop does
not set. -/
def getNtdDevice (ntd : Option δ) (num : ℤ) : Act (NtdSt δ) (Except ℤ δ) := do
  let s ← get
  let other : Option δ := none
  let ret :=
    if num = -1 then s.visited.find? fun d => other = some d
    else if 0 ≤ num then
      let ret := s.idr.find num.toNat
      if ntd.isSome ∧ ntd ≠ ret then none else ret
    else none
  match ret with
  | none => pure (.error (-eNODEV))
  | some d => getNtdDevice' d

/-- The loop of `get_ntd_device_nm`: each round compares the name of `other`; it stops the kernel
when that is `NULL`. -/
def searchNm (s : NtdSt δ) (name : String) (other : Option δ) : List δ → Act (NtdSt δ) (Option δ)
  | [] => pure none
  | _ :: ds =>
    match other with
    | none => hang
    | some o => if name = (s.dev o).name then pure (some o) else searchNm s name other ds

/-- `get_ntd_device_nm`. -/
def getNtdDeviceNm (name : String) : Act (NtdSt δ) (Except ℤ δ) := do
  let s ← get
  let other : Option δ := none
  match ← searchNm s name other s.visited with
  | none => pure (.error (-eNODEV))
  | some d => getNtdDevice' d

/-! ## The loop over the devices -/

omit [DecidableEq δ] in
/-- What is visited is registered. -/
lemma registered_of_mem_visitFrom {s : NtdSt δ} {d : δ} {n : ℕ} :
    ∀ {i : ℕ}, d ∈ s.visitFrom n i → s.Registered d := by
  induction n with
  | zero =>
    intro i h
    cases h
  | succ n ih =>
    intro i h
    rw [NtdSt.visitFrom] at h
    cases hnext : s.idr.next i with
    | none =>
      rw [hnext] at h
      cases h
    | some e =>
      rw [hnext] at h
      rcases List.mem_cons.mp h with rfl | h
      · obtain ⟨j, -, hj, -⟩ := s.idr.next_eq_some hnext
        exact ⟨j, hj⟩
      · exact ih h

omit [DecidableEq δ] in
/-- From a number on, every device is visited. -/
lemma mem_visitFrom {s : NtdSt δ} (hs : s.Wf) {d : δ} {k : ℕ} (hk : s.idr.find k = some d) {n : ℕ} :
    ∀ {i : ℕ}, i ≤ k → s.idr.slots.length < i + n → d ∈ s.visitFrom n i := by
  induction n with
  | zero =>
    intro i hik hn
    have := s.idr.find_eq_none_of_le (n := k) (by omega)
    rw [hk] at this
    cases this
  | succ n ih =>
    intro i hik hn
    rw [NtdSt.visitFrom]
    cases hnext : s.idr.next i with
    | none =>
      rw [s.idr.next_eq_none.mp hnext k hik] at hk
      cases hk
    | some e =>
      obtain ⟨j, hij, hj, hbetween⟩ := s.idr.next_eq_some hnext
      have hindex := hs j e hj
      rcases Nat.lt_trichotomy k j with hkj | rfl | hjk
      · rw [hbetween k hik hkj] at hk
        cases hk
      · rw [hk] at hj
        rw [← Option.some.inj hj]
        exact List.mem_cons_self
      · exact List.mem_cons_of_mem _ (ih (by omega) (by omega))

omit [DecidableEq δ] in
/-- **Every registered device is visited, and nothing else.** -/
lemma mem_visited {s : NtdSt δ} (hs : s.Wf) (d : δ) : d ∈ s.visited ↔ s.Registered d :=
  ⟨registered_of_mem_visitFrom, fun ⟨_, hk⟩ => mem_visitFrom hs hk (Nat.zero_le _) (by omega)⟩

/-! ## Exact lookups -/

/-- A lookup: by address and number, or by name. -/
inductive NtdQuery (δ : Type)
  | device (ntd : Option δ) (num : ℤ)
  | named (name : String)

/-- The call for a lookup. -/
def NtdQuery.run : NtdQuery δ → Act (NtdSt δ) (Except ℤ δ)
  | .device ntd num => getNtdDevice ntd num
  | .named name => getNtdDeviceNm name

/-- The devices a lookup asks for. -/
def NtdQuery.Wanted (s : NtdSt δ) : NtdQuery δ → δ → Prop
  | .device ntd num, d =>
    if num = -1 then ntd = some d ∧ s.Registered d
    else (ntd = none ∨ ntd = some d) ∧ ∃ i : ℕ, num = i ∧ s.idr.find i = some d
  | .named name, d => s.Registered d ∧ (s.dev d).name = name

/-- A lookup is exact: it returns a device that is asked for, whose use is counted, or an error
when there is none. -/
def NtdQuery.Exact (q : NtdQuery δ) (s : NtdSt δ) : Prop :=
  (∃ d, q.Wanted s d ∧ q.run s =
      (some (.ok d), s.setDev d fun x => { x with usecount := x.usecount + 1 })) ∨
    (¬∃ d, q.Wanted s d) ∧ q.run s = (some (.error (-eNODEV)), s)

/-- The search by address finds nothing. -/
lemma getNtdDevice_addr (ntd : Option δ) (s : NtdSt δ) :
    getNtdDevice ntd (-1) s = (some (.error (-eNODEV)), s) := by
  have hnone : s.visited.find? (fun d => decide ((none : Option δ) = some d)) = none :=
    List.find?_eq_none.mpr fun d _ => by simp
  rw [getNtdDevice, get_bind, if_pos rfl, hnone]
  rfl

/-- The search by number. -/
lemma getNtdDevice_num (ntd : Option δ) (n : ℕ) (s : NtdSt δ) :
    getNtdDevice ntd n s =
      match (if ntd.isSome ∧ ntd ≠ s.idr.find n then none else s.idr.find n) with
      | none => (some (.error (-eNODEV)), s)
      | some d => (some (.ok d), s.setDev d fun x => { x with usecount := x.usecount + 1 }) := by
  rw [getNtdDevice, get_bind, if_neg (by omega), if_pos (by omega), Int.toNat_natCast]
  generalize (if ntd.isSome ∧ ntd ≠ s.idr.find n then none else s.idr.find n) = ret
  cases ret <;> rfl

/-- The search by name: it comes to an end only in an empty table. -/
lemma getNtdDeviceNm_eq (name : String) (s : NtdSt δ) :
    getNtdDeviceNm name s = if s.visited = [] then (some (.error (-eNODEV)), s) else (none, s) := by
  rw [getNtdDeviceNm, get_bind]
  cases hv : s.visited with
  | nil => rfl
  | cons d ds => rfl

/-- The condition for a lookup to be exact: a search by address is for a device that is not
registered, and a search by name is in an empty table. -/
def NtdQuery.Fine (s : NtdSt δ) : NtdQuery δ → Prop
  | .device ntd num => num = -1 → ∀ d, ntd = some d → ¬s.Registered d
  | .named _ => ∀ d, ¬s.Registered d

/-- **When is a lookup exact?** -/
theorem lookup_exact_iff {s : NtdSt δ} (hs : s.Wf) (q : NtdQuery δ) : q.Exact s ↔ q.Fine s := by
  cases q with
  | device ntd num =>
    by_cases hnum : num = -1
    · -- by address
      subst hnum
      have hrun : (NtdQuery.device ntd (-1)).run s = (some (.error (-eNODEV)), s) :=
        getNtdDevice_addr ntd s
      constructor
      · rintro (⟨d, -, hok⟩ | ⟨hnone, -⟩) - d rfl hreg
        · rw [hrun] at hok
          cases hok
        · exact hnone ⟨d, by rw [NtdQuery.Wanted, if_pos rfl]; exact ⟨rfl, hreg⟩⟩
      · intro hfine
        refine .inr ⟨?_, hrun⟩
        rintro ⟨d, hd⟩
        rw [NtdQuery.Wanted, if_pos rfl] at hd
        exact hfine rfl d hd.1 hd.2
    · refine iff_of_true ?_ fun h => absurd h hnum
      have hwanted : ∀ d, (NtdQuery.device ntd num).Wanted s d ↔
          (ntd = none ∨ ntd = some d) ∧ ∃ i : ℕ, num = i ∧ s.idr.find i = some d := fun d => by
        rw [NtdQuery.Wanted, if_neg hnum]
      by_cases hpos : 0 ≤ num
      · -- by number
        obtain ⟨n, rfl⟩ := Int.eq_ofNat_of_zero_le hpos
        have hrun : (NtdQuery.device ntd n).run s = _ := getNtdDevice_num ntd n s
        have hwanted' : ∀ d, (NtdQuery.device ntd n).Wanted s d ↔
            (ntd = none ∨ ntd = some d) ∧ s.idr.find n = some d := fun d => by
          rw [hwanted d]
          refine and_congr_right fun _ => ⟨fun ⟨i, hi, hf⟩ => ?_, fun hf => ⟨n, rfl, hf⟩⟩
          rwa [Int.ofNat.inj hi]
        by_cases hother : ntd.isSome ∧ ntd ≠ s.idr.find n
        · rw [if_pos hother] at hrun
          refine .inr ⟨fun ⟨d, hd⟩ => ?_, hrun⟩
          obtain ⟨hntd | hntd, hf⟩ := (hwanted' d).mp hd
          · rw [hntd] at hother
            cases hother.1
          · exact hother.2 (hntd.trans hf.symm)
        · rw [if_neg hother] at hrun
          cases hf : s.idr.find n with
          | none =>
            rw [hf] at hrun
            refine .inr ⟨fun ⟨d, hd⟩ => ?_, hrun⟩
            rw [((hwanted' d).mp hd).2] at hf
            cases hf
          | some d =>
            rw [hf] at hrun
            refine .inl ⟨d, (hwanted' d).mpr ⟨?_, hf⟩, hrun⟩
            cases ntd with
            | none => exact .inl rfl
            | some e =>
              right
              by_contra hne
              exact hother ⟨rfl, fun h => hne (h.trans hf)⟩
      · -- by a negative number
        refine .inr ⟨fun ⟨d, hd⟩ => ?_, ?_⟩
        · obtain ⟨-, i, rfl, -⟩ := (hwanted d).mp hd
          exact hpos (Int.natCast_nonneg i)
        · rw [NtdQuery.run, getNtdDevice, get_bind, if_neg hnum, if_neg hpos]
          rfl
  | named name =>
    have hrun : (NtdQuery.named name).run s = _ := getNtdDeviceNm_eq name s
    have hempty : s.visited = [] ↔ ∀ d, ¬s.Registered d := by
      rw [List.eq_nil_iff_forall_not_mem]
      exact forall_congr' fun d => not_congr (mem_visited hs d)
    by_cases hv : s.visited = []
    · rw [if_pos hv] at hrun
      exact iff_of_true (.inr ⟨fun ⟨d, hd⟩ => hempty.mp hv d hd.1, hrun⟩) (hempty.mp hv)
    · rw [if_neg hv] at hrun
      refine iff_of_false ?_ fun h => hv (hempty.mpr h)
      rintro (⟨d, -, hok⟩ | ⟨-, herr⟩)
      · rw [hrun] at hok
        cases hok
      · rw [hrun] at herr
        cases herr

/-- A table with one device, at the number 0. -/
def oneNtd : NtdSt ℕ where
  idr := ⟨[some 7]⟩
  dev := fun _ => ⟨"nfcode", 8192, 0, 0⟩
  initAvailable := 0

lemma oneNtd_wf : oneNtd.Wf := by
  intro i d h
  change 0 = i
  by_contra hne
  rw [oneNtd.idr.find_eq_none_of_le (Nat.pos_of_ne_zero (Ne.symm hne))] at h
  cases h

/-- The only device is found by its number. -/
theorem lookup_exact_number : oneNtd.Wf ∧ (NtdQuery.device none 0).Exact oneNtd :=
  ⟨oneNtd_wf, (lookup_exact_iff oneNtd_wf _).mpr fun h => absurd h (by decide)⟩

/-- It is not found by its address, and a search by its name does not come to an end. -/
theorem not_lookup_exact_registered : oneNtd.Registered 7 ∧
    getNtdDevice (some 7) (-1) oneNtd = (some (.error (-eNODEV)), oneNtd) ∧
    ¬(NtdQuery.device (some 7) (-1)).Exact oneNtd ∧ ¬(NtdQuery.named "nfcode").Exact oneNtd := by
  have hreg : oneNtd.Registered 7 := ⟨0, rfl⟩
  have haddr := getNtdDevice_addr (some 7) oneNtd
  refine ⟨hreg, haddr, ?_, ?_⟩
  · rintro (⟨d, -, hok⟩ | ⟨hnone, -⟩)
    · rw [NtdQuery.run, haddr] at hok
      cases hok
    · exact hnone ⟨7, by rw [NtdQuery.Wanted, if_pos rfl]; exact ⟨rfl, hreg⟩⟩
  · have hrun : (NtdQuery.named "nfcode").run oneNtd = (none, oneNtd) :=
      getNtdDeviceNm_eq "nfcode" oneNtd
    rintro (⟨d, -, hok⟩ | ⟨-, herr⟩)
    · rw [hrun] at hok
      cases hok
    · rw [hrun] at herr
      cases herr

/-! ## Runs -/

/-- A step of a run: a device is registered or unregistered, or others change the count of its
uses. -/
inductive NtdCall (δ : Type)
  | add (o : AddOutcome) (d : δ)
  | del (d : δ)
  | uses (d : δ) (n : ℤ)

/-- What a step does and returns. -/
def NtdCall.run : NtdCall δ → Act (NtdSt δ) ℤ
  | .add o d => addNtdDevice o d
  | .del d => delNtdDevice d
  | .uses d n => do
    modify fun s => s.setDev d fun x => { x with usecount := n }
    pure 0

/-- A run of steps that satisfy `ok` in the state before them, with what each returned, the newest
first. -/
inductive NtdRun (ok : NtdSt δ → NtdCall δ → Prop) : List (NtdCall δ × ℤ) → NtdSt δ → Prop
  | start (dev : δ → NtdInfo) : NtdRun ok [] (.start dev)
  | step {h : List (NtdCall δ × ℤ)} {s t : NtdSt δ} {c : NtdCall δ} {ret : ℤ}
      (hrun : NtdRun ok h s) (hok : ok s c) (hc : c.run s = (some ret, t)) :
      NtdRun ok ((c, ret) :: h) t

/-- By its history, is a device registered? Its last `add_ntd_device` returned 0, and no later
`del_ntd_device` did. -/
def Held (d : δ) : List (NtdCall δ × ℤ) → Prop
  | [] => False
  | (.add _ e, ret) :: h => if e = d then ret = 0 else Held d h
  | (.del e, ret) :: h => if e = d ∧ ret = 0 then False else Held d h
  | (.uses _ _, _) :: h => Held d h

/-- The table holds the devices that are registered by the history, each at its own index, and
their indices are distinct. -/
structure TableExact (h : List (NtdCall δ × ℤ)) (s : NtdSt δ) : Prop where
  exact : ∀ i d, s.idr.find i = some d ↔ Held d h ∧ (s.dev d).index = i
  distinct : ∀ d e, Held d h → Held e h → (s.dev d).index = (s.dev e).index → d = e

/-- A step that fails leaves the table as it was. -/
def FailsClean (s : NtdSt δ) (c : NtdCall δ) : Prop :=
  ∀ ret t, c.run s = (some ret, t) → ret ≠ 0 → ∀ i, t.idr.find i = s.idr.find i

/-- A step with care: a device is registered only when it is not in the table, and the class is
initialised when it has to be. -/
def Careful (s : NtdSt δ) : NtdCall δ → Prop
  | .add o d => ¬s.Registered d ∧ (s.initAvailable = 1 → o.alloc = true → o.init = true)
  | _ => True

/-- A device that was unregistered is not held. -/
lemma held_del (d e : δ) (h : List (NtdCall δ × ℤ)) :
    Held e ((.del d, 0) :: h) ↔ d ≠ e ∧ Held e h := by
  rw [Held]
  by_cases hde : d = e
  · simp [hde]
  · simp [hde]

/-- Indices are distinct when every device is at its own. -/
lemma distinct_of_exact {h : List (NtdCall δ × ℤ)} {s : NtdSt δ}
    (hexact : ∀ i d, s.idr.find i = some d ↔ Held d h ∧ (s.dev d).index = i) :
    TableExact h s := by
  refine ⟨hexact, fun d e hd he heq => ?_⟩
  have h1 := (hexact _ d).mpr ⟨hd, rfl⟩
  have h2 := (hexact _ e).mpr ⟨he, heq.symm⟩
  exact Option.some.inj (h1.symm.trans h2)

/-- What `add_ntd_device` does with care: it fails and leaves the table as it was, or the device
gets a number that was free. -/
lemma addNtdDevice_cases {o : AddOutcome} {d : δ} {s t : NtdSt δ} {ret : ℤ}
    (hinit : s.initAvailable = 1 → o.alloc = true → o.init = true)
    (h : addNtdDevice o d s = (some ret, t)) :
    (∀ e ≠ d, t.dev e = s.dev e) ∧
      ((ret ≠ 0 ∧ ∀ i, t.idr.find i = s.idr.find i) ∨
        (ret = 0 ∧ (t.dev d).index = s.idr.free ∧
          ∀ i, t.idr.find i = if i = s.idr.free then some d else s.idr.find i)) := by
  rw [addNtdDevice, get_bind] at h
  split at h
  · cases h
  · split at h
    · cases h
      exact ⟨fun _ _ => rfl, .inl ⟨by decide, fun _ => rfl⟩⟩
    · next halloc =>
      rw [modify_bind] at h
      obtain ⟨_, u, hu, h⟩ := bind_eq_some h
      -- only `ntd_init_available` changes before the device is registered
      have hu' : u.idr = s.idr.alloc d ∧
          u.dev = (s.setDev d fun x => { x with index := s.idr.free, usecount := 0 }).dev := by
        unfold Act.when at hu
        split at hu <;> cases hu <;> exact ⟨rfl, rfl⟩
      have hdev : ∀ e ≠ d, u.dev e = s.dev e := fun e he => by
        rw [hu'.2, NtdSt.setDev_dev_of_ne s he]
      have hfind : ∀ i, u.idr.find i = if i = s.idr.free then some d else s.idr.find i := by
        rw [hu'.1]
        exact s.idr.find_alloc d
      split at h
      · next hfail =>
        exact absurd (hinit (by omega) (by simpa using halloc)) hfail.2
      · split at h
        · rw [modify_bind] at h
          cases h
          refine ⟨hdev, .inl ⟨by decide, fun i => ?_⟩⟩
          rw [Idr.find_remove, hfind]
          split
          · next hi => rw [hi, s.idr.find_free]
          · rfl
        · cases h
          refine ⟨hdev, .inr ⟨rfl, ?_, hfind⟩⟩
          rw [hu'.2, NtdSt.setDev_dev_self]

/-- What `del_ntd_device` does. -/
lemma delNtdDevice_cases {d : δ} {s t : NtdSt δ} {ret : ℤ}
    (h : delNtdDevice d s = (some ret, t)) :
    t.dev = s.dev ∧ ((ret ≠ 0 ∧ t.idr = s.idr) ∨
      (ret = 0 ∧ s.idr.find (s.dev d).index = some d ∧ t.idr = s.idr.remove (s.dev d).index)) := by
  rw [delNtdDevice, get_bind] at h
  split at h
  · cases h
    exact ⟨rfl, .inl ⟨by decide, rfl⟩⟩
  · next hfind =>
    split at h
    · cases h
      exact ⟨rfl, .inl ⟨by decide, rfl⟩⟩
    · rw [modify_bind] at h
      cases h
      exact ⟨rfl, .inr ⟨rfl, not_not.mp hfind, rfl⟩⟩

/-- A step with care that fails leaves the table as it was. -/
lemma failsClean_of_careful {s : NtdSt δ} {c : NtdCall δ} (hc : Careful s c) : FailsClean s c := by
  intro ret t hrun hret i
  cases c with
  | add o d =>
    obtain ⟨-, ⟨-, hsame⟩ | ⟨h0, -⟩⟩ := addNtdDevice_cases hc.2 hrun
    · exact hsame i
    · exact absurd h0 hret
  | del d =>
    obtain ⟨-, ⟨-, hsame⟩ | ⟨h0, -⟩⟩ := delNtdDevice_cases hrun
    · rw [hsame]
    · exact absurd h0 hret
  | uses d n =>
    cases hrun
    exact absurd rfl hret

/-- **A step with care keeps the table exact.** -/
lemma TableExact.step {h : List (NtdCall δ × ℤ)} {s t : NtdSt δ} {c : NtdCall δ} {ret : ℤ}
    (hs : TableExact h s) (hc : Careful s c) (hrun : c.run s = (some ret, t)) :
    TableExact ((c, ret) :: h) t := by
  refine distinct_of_exact fun i e => ?_
  cases c with
  | add o d =>
    have hnot : ∀ j, s.idr.find j ≠ some d := fun j hj => hc.1 ⟨j, hj⟩
    have hheld : ¬Held d h := fun hd => hnot _ ((hs.exact _ d).mpr ⟨hd, rfl⟩)
    obtain ⟨hdev, ⟨hret, hsame⟩ | ⟨rfl, hindex, hfind⟩⟩ := addNtdDevice_cases hc.2 hrun
    · rw [hsame, Held]
      by_cases hde : d = e
      · subst hde
        rw [if_pos rfl]
        exact iff_of_false (hnot i) fun hh => hret hh.1
      · rw [if_neg hde, hdev e (Ne.symm hde)]
        exact hs.exact i e
    · rw [hfind, Held]
      by_cases hde : d = e
      · subst hde
        rw [if_pos rfl, hindex]
        by_cases hi : i = s.idr.free
        · rw [if_pos hi]
          exact iff_of_true rfl ⟨rfl, hi.symm⟩
        · rw [if_neg hi]
          exact iff_of_false (hnot i) fun hh => hi hh.2.symm
      · rw [if_neg hde, hdev e (Ne.symm hde)]
        by_cases hi : i = s.idr.free
        · rw [if_pos hi]
          refine iff_of_false (fun he => hde (Option.some.inj he)) fun hh => ?_
          have hfree := (hs.exact i e).mpr hh
          rw [hi, s.idr.find_free] at hfree
          cases hfree
        · rw [if_neg hi]
          exact hs.exact i e
  | del d =>
    obtain ⟨hdev, ⟨hret, hsame⟩ | ⟨rfl, hfound, hremoved⟩⟩ := delNtdDevice_cases hrun
    · rw [hsame, hdev, Held, if_neg fun hh => hret hh.2]
      exact hs.exact i e
    · rw [hremoved, hdev, held_del, Idr.find_remove]
      by_cases hde : d = e
      · subst hde
        refine iff_of_false (fun hf => ?_) fun hh => hh.1.1 rfl
        split at hf
        · cases hf
        · next hi => exact hi ((hs.exact i d).mp hf).2.symm
      · rw [and_iff_right hde]
        by_cases hi : i = (s.dev d).index
        · rw [if_pos hi]
          refine iff_of_false nofun fun hh => ?_
          have hat := (hs.exact i e).mpr hh
          rw [hi, hfound] at hat
          exact hde (Option.some.inj hat)
        · rw [if_neg hi]
          exact hs.exact i e
  | uses d n =>
    obtain ⟨-, rfl⟩ := Prod.mk.inj hrun
    have hindex : ((s.setDev d fun x => { x with usecount := n }).dev e).index =
        (s.dev e).index := by
      by_cases hde : e = d
      · rw [hde, NtdSt.setDev_dev_self]
      · rw [NtdSt.setDev_dev_of_ne s hde]
    rw [Held, hindex]
    exact hs.exact i e

/-- **The table holds exactly the registered devices**, after every run with care; and a further
step with care that fails leaves it as it was. -/
theorem table_exact {h : List (NtdCall δ × ℤ)} {s : NtdSt δ} (hrun : NtdRun Careful h s) :
    TableExact h s ∧ ∀ c, Careful s c → FailsClean s c := by
  refine ⟨?_, fun c hc => failsClean_of_careful hc⟩
  induction hrun with
  | start dev => exact distinct_of_exact fun i d => iff_of_false nofun fun hh => hh.1
  | step _ hok hc ih => exact ih.step hok hc

/-- A device that is registered: everything it needs from the kernel succeeds. -/
theorem table_exact_first : ∃ t : NtdSt ℕ,
    NtdRun Careful [(.add ⟨true, true, true⟩ 7, 0)] t ∧
      TableExact [(.add ⟨true, true, true⟩ 7, 0)] t := by
  let s : NtdSt ℕ := .start fun _ => ⟨"nfcode", 8192, 0, 0⟩
  have hcare : Careful s (.add ⟨true, true, true⟩ 7) := ⟨fun h => h.elim nofun, fun _ _ => rfl⟩
  obtain ⟨t, ht⟩ := exists_of_returned (x := (NtdCall.add ⟨true, true, true⟩ 7).run) (s := s)
    (a := 0) (by decide)
  have hrun : NtdRun Careful [(.add ⟨true, true, true⟩ 7, 0)] t := .step (.start _) hcare ht
  exact ⟨t, hrun, (table_exact hrun).1⟩

/-- The class cannot be initialised for the first device: `add_ntd_device` returns 1, and the device
stays in the table. -/
theorem not_table_exact_init : ∃ t : NtdSt ℕ,
    NtdRun (fun _ _ => True) [(.add ⟨true, false, true⟩ 7, 1)] t ∧ t.idr.find 0 = some 7 ∧
      ¬TableExact [(.add ⟨true, false, true⟩ 7, 1)] t := by
  obtain ⟨t, ht, hfind⟩ := exists_of_run (x := (NtdCall.add ⟨true, false, true⟩ 7).run)
    (s := NtdSt.start fun _ => ⟨"nfcode", 8192, 0, 0⟩) (a := 1)
    (P := fun t => t.idr.find 0 = some 7) (by decide) (by decide)
  refine ⟨t, .step (.start _) trivial ht, hfind, fun h => ?_⟩
  have hheld := ((h.exact 0 7).mp hfind).1
  rw [Held, if_pos rfl] at hheld
  exact absurd hheld (by decide)

end Amlnf
