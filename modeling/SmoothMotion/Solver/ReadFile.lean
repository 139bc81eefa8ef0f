-- SUMMARY: ReadFile: reading the .SMInput file section by section, and what a section does for every number of tokens.
import SmoothMotion.Lib.IStream
import SmoothMotion.Lib.Loop
import SmoothMotion.Solver.Collider

open Decimal

/-!
# Reading the input

`ReadInt` and `ReadDouble` test the stream before they read, and the loops of
`ReadFile` count a read whether it succeeded or not. So a read that fails, at the
end of the file or at a number that is out of range, is noticed by the read after
it or by the next count: only the last number of a section gets past both.
-/

/-- How the program ends when a function does not return. -/
inductive Exit where
  | writeErrorAndExit (error : String)
  | lengthError
deriving DecidableEq, Repr

/-- The values of variables nobody has written yet. -/
structure Uninitialised (K : Type) where
  numColliders : Int32
  collider : Collider K

/-- Memory that happens to hold zeros. -/
def Uninitialised.zeros : Uninitialised ℚ := ⟨0, ⟨⟨0, 0, 0⟩, ⟨0, 0, 0⟩⟩⟩

/-- What `ReadFile` hands to `main`. -/
structure Input (K : Type) where
  colliders : List (Collider K)
  positions : List K
  frames : Int32
  numBones : Int32
  parents : List Int32
deriving DecidableEq, Repr

section Read

variable {K : Type} [Scalar K]

def readInt (stream : IStream) (value : Int32) : Except Exit (IStream × Int32) :=
  if stream.ok then .ok (stream.extractInt value)
  else .error (.writeErrorAndExit "Unexpected end of file\n")

def readDouble (stream : IStream) (value : K) : Except Exit (IStream × K) :=
  if stream.ok then .ok (stream.extractDouble value)
  else .error (.writeErrorAndExit "Unexpected end of file\n")

def readVector3 (stream : IStream) (value : Vector3d K) : Except Exit (IStream × Vector3d K) := do
  let (stream, x) ← readDouble stream value.x
  let (stream, y) ← readDouble stream value.y
  let (stream, z) ← readDouble stream value.z
  return (stream, ⟨x, y, z⟩)

/-- The body of the loop over the colliders. -/
def readCollider (stream : IStream) (value : Collider K) : Except Exit (IStream × Collider K) := do
  let (stream, planePosition) ← readVector3 stream value.planePosition
  let (stream, planeNormal) ← readVector3 stream value.planeNormal
  return (stream, ⟨planePosition, planeNormal⟩)

/-- `vector<T>(n)`. -/
def newVector {α : Type} (n : Int32) (a : α) : Except Exit (List α) :=
  if n < 0 then .error .lengthError else .ok (List.replicate n.toInt.toNat a)

/-- `while (inputStream && i < v.size()) { read(inputStream, v[i]); i++; }`: the
    stream, the vector and `i` after the loop. -/
def fill {α : Type} (read : IStream → α → Except Exit (IStream × α)) (stream : IStream) :
    List α → Except Exit (IStream × List α × Nat)
  | [] => .ok (stream, [], 0)
  | a :: as =>
    if stream.ok then do
      let (stream, a) ← read stream a
      let (stream, as, i) ← fill read stream as
      return (stream, a :: as, i + 1)
    else .ok (stream, a :: as, 0)

/-- `if (i != n) WriteErrorAndExit(error)`. -/
def checkCount (i : Nat) (n : Int32) (error : String) : Except Exit Unit :=
  if (i : Int) ≠ n.toInt then .error (.writeErrorAndExit error) else .ok ()

/-- One section of the file: a vector of `n` elements, filled from the stream. -/
def readVector {α : Type} (read : IStream → α → Except Exit (IStream × α)) (stream : IStream)
    (n : Int32) (a : α) (error : String) : Except Exit (IStream × List α) := do
  let v ← newVector n a
  let (stream, v, i) ← fill read stream v
  checkCount i n error
  return (stream, v)

/-- `ReadFile` from `numParameters = numBones * frames * 3` on. -/
def readSections (stream : IStream) (memory : Uninitialised K)
    (numBones frames numColliders : Int32) : Except Exit (Input K) := do
  let numParameters := numBones * frames * 3
  let (stream, positions) ← readVector readDouble stream numParameters 0
    "File ended before all bone positions were found"
  let (stream, colliders) ← readVector readCollider stream numColliders memory.collider
    "File ended before all colliders were found"
  let (_, parents) ← readVector readInt stream numBones 0
    "File ended before all bone parents were found"
  return { colliders, positions, frames, numBones, parents }

/-- `ReadFile` on the content of the file, if it can be opened; `frames` is the
    variable of `main` it is passed. -/
def readFile (file : Option Text) (memory : Uninitialised K) (frames : Int32) :
    Except Exit (Input K) := do
  let text ← match file with
    | none => .error (.writeErrorAndExit "Failed to open file\n")
    | some text => .ok text
  let stream := IStream.ofText text
  let (stream, numBones) ← readInt stream 0
  let (stream, frames) ← readInt stream frames
  let (stream, numColliders) ← readInt stream memory.numColliders
  readSections stream memory numBones frames numColliders

end Read

/-! ## Readers of a fixed number of tokens -/

/-- `read` takes `width` tokens off the stream, which spell the numbers of the
    value it gives. If exactly one is missing or refused it returns all the same,
    with a failed stream; otherwise it does not return. -/
structure Reads {α β : Type} (read : IStream → α → Except Exit (IStream × α)) (width : Nat)
    (parse : Text → Option β) (refused : Text → Prop) (numbers : α → List β) : Prop where
  pos : 0 < width
  full : ∀ {s : IStream} {toks rest : List Text} (a : α), toks.length = width →
    (∀ tok ∈ toks, (parse tok).isSome) → s.At (toks ++ rest) →
    ∃ s' a', read s a = .ok (s', a') ∧ (numbers a').map some = toks.map parse ∧ s'.At rest
  last : ∀ {s : IStream} {toks : List Text} (a : α), toks.length + 1 = width →
    (∀ tok ∈ toks, (parse tok).isSome) → s.Cut refused toks →
    ∃ s' a', read s a = .ok (s', a') ∧ s'.ok = false
  short : ∀ {s : IStream} {toks : List Text} (a : α), toks.length + 1 < width →
    (∀ tok ∈ toks, (parse tok).isSome) → s.Cut refused toks →
    ∃ e, read s a = .error (.writeErrorAndExit e)
  failed : ∀ {s : IStream} (a : α), s.ok = false → ∃ e, read s a = .error (.writeErrorAndExit e)

namespace Reads

variable {K : Type} [Scalar K]

theorem int : Reads readInt 1 IStream.intToken IStream.IntOverflow (fun n => [n]) where
  pos := Nat.one_pos
  full := by
    intro s toks rest a hlen hvalid hs
    obtain ⟨tok, rfl⟩ := List.length_eq_one_iff.mp hlen
    obtain ⟨n, hn⟩ := Option.isSome_iff_exists.mp (hvalid tok (by simp))
    obtain ⟨s', hread, hs'⟩ := hs.extractInt_cons hn a
    exact ⟨s', n, by simp [readInt, hs.ok, hread], by simp [hn], hs'⟩
  last := by
    intro s toks a hlen _ hs
    obtain rfl := List.eq_nil_of_length_eq_zero (Nat.succ.inj hlen)
    exact ⟨_, _, by rw [readInt, if_pos hs.ok], hs.extractInt a⟩
  short := by
    intro s toks a hlen
    omega
  failed := by
    intro s a hs
    exact ⟨"Unexpected end of file\n", by simp [readInt, hs]⟩

theorem double : Reads (readDouble (K := K)) 1 (IStream.doubleToken K)
    (IStream.DoubleOverflow K) (fun x => [x]) where
  pos := Nat.one_pos
  full := by
    intro s toks rest a hlen hvalid hs
    obtain ⟨tok, rfl⟩ := List.length_eq_one_iff.mp hlen
    obtain ⟨x, hx⟩ := Option.isSome_iff_exists.mp (hvalid tok (by simp))
    obtain ⟨s', hread, hs'⟩ := hs.extractDouble_cons hx a
    exact ⟨s', x, by simp [readDouble, hs.ok, hread], by simp [hx], hs'⟩
  last := by
    intro s toks a hlen _ hs
    obtain rfl := List.eq_nil_of_length_eq_zero (Nat.succ.inj hlen)
    exact ⟨_, _, by rw [readDouble, if_pos hs.ok], hs.extractDouble a⟩
  short := by
    intro s toks a hlen
    omega
  failed := by
    intro s a hs
    exact ⟨"Unexpected end of file\n", by simp [readDouble, hs]⟩

/-- A reader takes its tokens from the front of at least as many. -/
theorem full_take {α β : Type} {read : IStream → α → Except Exit (IStream × α)} {width : Nat}
    {parse : Text → Option β} {refused : Text → Prop} {numbers : α → List β}
    (h : Reads read width parse refused numbers)
    {s : IStream} {toks : List Text} (a : α) (hlen : width ≤ toks.length)
    (hvalid : ∀ tok ∈ toks.take width, (parse tok).isSome) (hs : s.At toks) :
    ∃ s' a', read s a = .ok (s', a') ∧ (numbers a').map some = (toks.take width).map parse ∧
      s'.At (toks.drop width) := by
  rw [← List.take_append_drop width toks] at hs
  exact h.full a (by simp [hlen]) hvalid hs

/-- It leaves a cut where it was. -/
theorem cut_take {α β : Type} {read : IStream → α → Except Exit (IStream × α)} {width : Nat}
    {parse : Text → Option β} {refused refused' : Text → Prop} {numbers : α → List β}
    (h : Reads read width parse refused numbers) {s : IStream} {toks : List Text} (a : α)
    (hlen : width ≤ toks.length) (hvalid : ∀ tok ∈ toks.take width, (parse tok).isSome)
    (hs : s.Cut refused' toks) :
    ∃ s' a', read s a = .ok (s', a') ∧ s'.Cut refused' (toks.drop width) := by
  obtain ⟨rest, hs, hrefused⟩ := hs
  rw [← List.take_append_drop width toks, List.append_assoc] at hs
  obtain ⟨s', a', hread, -, hs'⟩ := h.full a (by simp [hlen]) hvalid hs
  exact ⟨s', a', hread, rest, hs', hrefused⟩

/-- Two readers one after the other. -/
theorem seq {α α₁ α₂ β : Type} {read₁ : IStream → α₁ → Except Exit (IStream × α₁)}
    {read₂ : IStream → α₂ → Except Exit (IStream × α₂)} {w₁ w₂ : Nat} {parse : Text → Option β}
    {refused : Text → Prop} {numbers₁ : α₁ → List β} {numbers₂ : α₂ → List β}
    (h₁ : Reads read₁ w₁ parse refused numbers₁) (h₂ : Reads read₂ w₂ parse refused numbers₂)
    (fst : α → α₁) (snd : α → α₂) (mk : α₁ → α₂ → α)
    (hfst : ∀ x y, fst (mk x y) = x) (hsnd : ∀ x y, snd (mk x y) = y) :
    Reads (fun s a => do
        let (s, x) ← read₁ s (fst a)
        let (s, y) ← read₂ s (snd a)
        return (s, mk x y)) (w₁ + w₂) parse refused
      (fun a => numbers₁ (fst a) ++ numbers₂ (snd a)) where
  pos := Nat.add_pos_left h₁.pos w₂
  full := by
    intro s toks rest a hlen hvalid hs
    have hfirst : ((toks ++ rest).take w₁) = toks.take w₁ :=
      List.take_append_of_le_length (by omega)
    have hrest : ((toks ++ rest).drop w₁) = toks.drop w₁ ++ rest :=
      List.drop_append_of_le_length (by omega)
    obtain ⟨s₁, x, hread₁, hx, hs₁⟩ := h₁.full_take (fst a) (by simp; omega)
      (fun tok h => hvalid tok (List.mem_of_mem_take (hfirst ▸ h))) hs
    rw [hrest] at hs₁
    obtain ⟨s₂, y, hread₂, hy, hs₂⟩ := h₂.full (snd a) (by simp; omega)
      (fun tok h => hvalid tok (List.mem_of_mem_drop h)) hs₁
    refine ⟨s₂, mk x y, ?_, ?_, hs₂⟩
    · simp only [hread₁, hread₂, Except.ok_bind]
      rfl
    · rw [hfst, hsnd, List.map_append, hx, hy, hfirst, ← List.map_append, List.take_append_drop]
  last := by
    intro s toks a hlen hvalid hs
    have hpos₂ := h₂.pos
    obtain ⟨s₁, x, hread₁, hs₁⟩ := h₁.cut_take (fst a) (by omega)
      (fun tok h => hvalid tok (List.mem_of_mem_take h)) hs
    obtain ⟨s₂, y, hread₂, hs₂⟩ := h₂.last (snd a) (by simp; omega)
      (fun tok h => hvalid tok (List.mem_of_mem_drop h)) hs₁
    refine ⟨s₂, mk x y, ?_, hs₂⟩
    simp only [hread₁, hread₂, Except.ok_bind]
    rfl
  short := by
    intro s toks a hlen hvalid hs
    -- the tokens end in the second reader, on its first token, or in the first reader
    rcases Nat.lt_trichotomy (toks.length + 1) w₁ with hlt | heq | hgt
    · obtain ⟨e, he⟩ := h₁.short (fst a) hlt hvalid hs
      exact ⟨e, by simp only [he, Except.error_bind]⟩
    · obtain ⟨s₁, x, hread₁, hs₁⟩ := h₁.last (fst a) heq hvalid hs
      obtain ⟨e, he⟩ := h₂.failed (snd a) hs₁
      exact ⟨e, by simp only [hread₁, he, Except.ok_bind, Except.error_bind]⟩
    · obtain ⟨s₁, x, hread₁, hs₁⟩ := h₁.cut_take (fst a) (by omega)
        (fun tok h => hvalid tok (List.mem_of_mem_take h)) hs
      obtain ⟨e, he⟩ := h₂.short (snd a) (by simp; omega)
        (fun tok h => hvalid tok (List.mem_of_mem_drop h)) hs₁
      exact ⟨e, by simp only [hread₁, he, Except.ok_bind, Except.error_bind]⟩
  failed := by
    intro s a hs
    obtain ⟨e, he⟩ := h₁.failed (fst a) hs
    exact ⟨e, by simp only [he, Except.error_bind]⟩

theorem vector3 : Reads (readVector3 (K := K)) 3 (IStream.doubleToken K)
    (IStream.DoubleOverflow K) Vector3d.toList := by
  have hpair := double.seq (double (K := K)) Prod.fst Prod.snd Prod.mk
    (fun _ _ => rfl) fun _ _ => rfl
  have hvec := double.seq hpair Vector3d.x (fun v => (v.y, v.z)) (fun x yz => ⟨x, yz.1, yz.2⟩)
    (fun _ _ => rfl) fun _ _ => rfl
  convert hvec using 1
  · funext s v
    simp [readVector3]
  · rfl

theorem collider : Reads (readCollider (K := K)) 6 (IStream.doubleToken K)
    (IStream.DoubleOverflow K) Collider.toList :=
  vector3.seq vector3 Collider.planePosition Collider.planeNormal Collider.mk
    (fun _ _ => rfl) fun _ _ => rfl

end Reads

/-! ## Filling a vector -/

section Fill

variable {α β : Type} {read : IStream → α → Except Exit (IStream × α)} {width : Nat}
  {parse : Text → Option β} {refused : Text → Prop} {numbers : α → List β}

/-- A failed stream fills nothing. -/
theorem fill_stopped (read : IStream → α → Except Exit (IStream × α)) {s : IStream}
    (hs : s.ok = false) (as : List α) : fill read s as = .ok (s, as, 0) := by
  cases as with
  | nil => rfl
  | cons a as => simp [fill, hs]

/-- With all tokens there the vector holds the numbers they spell. -/
theorem Reads.fill_full (h : Reads read width parse refused numbers) {s : IStream} {toks : List Text}
    (as : List α) (hlen : as.length * width ≤ toks.length)
    (hvalid : ∀ tok ∈ toks.take (as.length * width), (parse tok).isSome) (hs : s.At toks) :
    ∃ s' as', fill read s as = .ok (s', as', as.length) ∧
      (as'.flatMap numbers).map some = (toks.take (as.length * width)).map parse ∧
      as'.length = as.length ∧ s'.At (toks.drop (as.length * width)) := by
  induction as generalizing s toks with
  | nil => exact ⟨s, [], rfl, by simp, rfl, by simpa using hs⟩
  | cons a as ih =>
    have hwidth : (a :: as).length * width = width + as.length * width := by
      rw [List.length_cons, Nat.succ_mul, Nat.add_comm]
    rw [hwidth] at hlen hvalid ⊢
    rw [List.take_add] at hvalid
    obtain ⟨s₁, a', hread, ha', hs₁⟩ := h.full_take a (by omega)
      (fun tok hmem => hvalid tok (List.mem_append_left _ hmem)) hs
    obtain ⟨s₂, as', hfill, has', hlen', hs₂⟩ := ih (by simp; omega)
      (fun tok hmem => hvalid tok (List.mem_append_right _ hmem)) hs₁
    refine ⟨s₂, a' :: as', ?_, ?_, by simp [hlen'], by rwa [← List.drop_drop]⟩
    · simp only [fill, hs.ok, if_true, hread, hfill, Except.ok_bind]
      rfl
    · rw [List.flatMap_cons, List.map_append, ha', has', List.take_add, List.map_append]

/-- One token short the vector counts as filled, but the stream has failed. -/
theorem Reads.fill_last (h : Reads read width parse refused numbers) {s : IStream} {toks : List Text}
    (as : List α) (hlen : toks.length + 1 = as.length * width)
    (hvalid : ∀ tok ∈ toks, (parse tok).isSome) (hs : s.Cut refused toks) :
    ∃ s' as', fill read s as = .ok (s', as', as.length) ∧ s'.ok = false := by
  induction as generalizing s toks with
  | nil => simp at hlen
  | cons a as ih =>
    have hwidth : (a :: as).length * width = width + as.length * width := by
      rw [List.length_cons, Nat.succ_mul, Nat.add_comm]
    rw [hwidth] at hlen
    cases as with
    | nil =>
      obtain ⟨s', a', hread, hs'⟩ := h.last a (by simpa using hlen) hvalid hs
      refine ⟨s', [a'], ?_, hs'⟩
      simp only [fill, hs.ok, if_true, hread, Except.ok_bind]
      rfl
    | cons b as =>
      have hpos := h.pos
      have hrest : 0 < (b :: as).length * width := Nat.mul_pos (by simp) hpos
      obtain ⟨s₁, a', hread, hs₁⟩ := h.cut_take a (by omega)
        (fun tok hmem => hvalid tok (List.mem_of_mem_take hmem)) hs
      obtain ⟨s₂, as', hfill, hs₂⟩ := ih (by rw [List.length_drop]; omega)
        (fun tok hmem => hvalid tok (List.mem_of_mem_drop hmem)) hs₁
      refine ⟨s₂, a' :: as', ?_, hs₂⟩
      simp only [fill, hs.ok, if_true, hread, Except.ok_bind] at hfill ⊢
      rw [hfill]
      rfl

/-- With more tokens missing it does not return, or stops with a failed stream
    before the vector is filled. -/
theorem Reads.fill_short (h : Reads read width parse refused numbers) {s : IStream} {toks : List Text}
    (as : List α) (hlen : toks.length + 1 < as.length * width)
    (hvalid : ∀ tok ∈ toks, (parse tok).isSome) (hs : s.Cut refused toks) :
    (∃ e, fill read s as = .error (.writeErrorAndExit e)) ∨
      ∃ s' as' i, fill read s as = .ok (s', as', i) ∧ i < as.length := by
  induction as generalizing s toks with
  | nil => simp at hlen
  | cons a as ih =>
    have hwidth : (a :: as).length * width = width + as.length * width := by
      rw [List.length_cons, Nat.succ_mul, Nat.add_comm]
    rw [hwidth] at hlen
    rcases Nat.lt_trichotomy (toks.length + 1) width with hlt | heq | hgt
    · obtain ⟨e, he⟩ := h.short a hlt hvalid hs
      exact .inl ⟨e, by simp only [fill, hs.ok, if_true, he, Except.error_bind]⟩
    · obtain ⟨s₁, a', hread, hs₁⟩ := h.last a heq hvalid hs
      refine .inr ⟨s₁, a' :: as, 1, ?_, ?_⟩
      · simp only [fill, hs.ok, if_true, hread, Except.ok_bind, fill_stopped read hs₁]
        rfl
      · cases as with
        | nil => simp at hlen; omega
        | cons b as => simp
    · obtain ⟨s₁, a', hread, hs₁⟩ := h.cut_take a (by omega)
        (fun tok hmem => hvalid tok (List.mem_of_mem_take hmem)) hs
      rcases ih (by simp; omega) (fun tok hmem => hvalid tok (List.mem_of_mem_drop hmem)) hs₁ with
        ⟨e, he⟩ | ⟨s₂, as', i, hfill, hi⟩
      · exact .inl ⟨e, by simp only [fill, hs.ok, if_true, hread, he, Except.ok_bind, Except.error_bind]⟩
      · refine .inr ⟨s₂, a' :: as', i + 1, ?_, by simp [hi]⟩
        simp only [fill, hs.ok, if_true, hread, hfill, Except.ok_bind]
        rfl

/-! ## A section of the file -/

theorem newVector_eq {n : Int32} {m : Nat} (hn : n.toInt = m) (a : α) :
    newVector n a = .ok (List.replicate m a) := by
  have hneg : ¬ n < 0 := by
    rw [Int32.lt_iff_toInt_lt, hn]
    simp
  unfold newVector
  rw [if_neg hneg, hn, Int.toNat_natCast]

theorem Reads.readVector_full (h : Reads read width parse refused numbers)
    {s : IStream} {toks : List Text} {n : Int32} {m : Nat} (hn : n.toInt = m) (a : α)
    (error : String) (hlen : m * width ≤ toks.length)
    (hvalid : ∀ tok ∈ toks.take (m * width), (parse tok).isSome) (hs : s.At toks) :
    ∃ s' v, readVector read s n a error = .ok (s', v) ∧
      (v.flatMap numbers).map some = (toks.take (m * width)).map parse ∧
      v.length = m ∧ s'.At (toks.drop (m * width)) := by
  have hreplicate : (List.replicate m a).length = m := List.length_replicate
  obtain ⟨s', v, hfill, hv, hlen', hs'⟩ := h.fill_full (List.replicate m a)
    (by rwa [hreplicate]) (by rwa [hreplicate]) hs
  rw [hreplicate] at hfill hv hlen' hs'
  refine ⟨s', v, ?_, hv, hlen', hs'⟩
  simp only [readVector, newVector_eq hn, hfill, Except.ok_bind, checkCount, hn]
  simp

/-- A section in front of a cut leaves the cut where it was. -/
theorem Reads.readVector_cut (h : Reads read width parse refused numbers) {refused' : Text → Prop}
    {s : IStream} {toks : List Text} {n : Int32} {m : Nat} (hn : n.toInt = m) (a : α)
    (error : String) (hlen : m * width ≤ toks.length)
    (hvalid : ∀ tok ∈ toks.take (m * width), (parse tok).isSome) (hs : s.Cut refused' toks) :
    ∃ s' v, readVector read s n a error = .ok (s', v) ∧
      s'.Cut refused' (toks.drop (m * width)) := by
  obtain ⟨rest, hs, hrefused⟩ := hs
  obtain ⟨s', v, hread, -, -, hs'⟩ := h.readVector_full hn a error
    (hlen.trans (by simp)) (by rwa [List.take_append_of_le_length hlen]) hs
  rw [List.drop_append_of_le_length hlen] at hs'
  exact ⟨s', v, hread, rest, hs', hrefused⟩

/-- One token short, the section passes its check with a failed stream. -/
theorem Reads.readVector_last (h : Reads read width parse refused numbers)
    {s : IStream} {toks : List Text} {n : Int32} {m : Nat} (hn : n.toInt = m) (a : α)
    (error : String)
    (hlen : toks.length + 1 = m * width) (hvalid : ∀ tok ∈ toks, (parse tok).isSome)
    (hs : s.Cut refused toks) :
    ∃ s' v, readVector read s n a error = .ok (s', v) ∧ s'.ok = false := by
  have hreplicate : (List.replicate m a).length = m := List.length_replicate
  obtain ⟨s', v, hfill, hs'⟩ := h.fill_last (List.replicate m a) (by rwa [hreplicate]) hvalid hs
  rw [hreplicate] at hfill
  refine ⟨s', v, ?_, hs'⟩
  simp only [readVector, newVector_eq hn, hfill, Except.ok_bind, checkCount, hn]
  simp

theorem Reads.readVector_short (h : Reads read width parse refused numbers) {s : IStream}
    {toks : List Text} {n : Int32} {m : Nat} (hn : n.toInt = m) (a : α) (error : String)
    (hlen : toks.length + 1 < m * width) (hvalid : ∀ tok ∈ toks, (parse tok).isSome)
    (hs : s.Cut refused toks) : ∃ e, readVector read s n a error = .error (.writeErrorAndExit e) := by
  have hreplicate : (List.replicate m a).length = m := List.length_replicate
  rcases h.fill_short (List.replicate m a) (by rwa [hreplicate]) hvalid hs with
    ⟨e, he⟩ | ⟨s', v, i, hfill, hi⟩
  · exact ⟨e, by simp only [readVector, newVector_eq hn, he, Except.ok_bind, Except.error_bind]⟩
  · rw [hreplicate] at hi
    have hcount : (i : Int) ≠ n.toInt := by rw [hn]; omega
    refine ⟨error, ?_⟩
    simp only [readVector, newVector_eq hn, hfill, Except.ok_bind, checkCount, if_pos hcount,
      Except.error_bind]

/-- On a failed stream only an empty section passes its check. -/
theorem readVector_stopped (read : IStream → α → Except Exit (IStream × α)) {s : IStream}
    (hs : s.ok = false) {n : Int32} {m : Nat} (hn : n.toInt = m) (a : α) (error : String) :
    readVector read s n a error =
      if m = 0 then .ok (s, []) else .error (.writeErrorAndExit error) := by
  simp only [readVector, newVector_eq hn, fill_stopped read hs, Except.ok_bind, checkCount, hn]
  cases m with
  | zero => rfl
  | succ m =>
    have hcount : ((0 : Nat) : Int) ≠ ((m + 1 : Nat) : Int) := by omega
    rw [if_pos hcount, if_neg (Nat.succ_ne_zero m)]
    rfl

end Fill
