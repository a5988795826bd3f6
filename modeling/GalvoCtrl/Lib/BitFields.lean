import Mathlib.Data.List.Pairwise

/-!
# BitFields — fields laid over an image of bits

An image is a function of the bit index. A field takes the place of `len` bits from
`start` on. Fields that do not overlap are read back after all of them have been laid
down, and the rest of the image stays as it was.
-/

namespace GalvoCtrl.Lib

/-- The bits `content 0, …, content (len - 1)` at `start, …, start + len - 1`. -/
structure BitField where
  start : Nat
  len : Nat
  content : Nat → Bool

namespace BitField

/-- The field covers bit `i`. -/
def Covers (f : BitField) (i : Nat) : Prop := f.start ≤ i ∧ i < f.start + f.len

instance (f : BitField) (i : Nat) : Decidable (f.Covers i) :=
  inferInstanceAs (Decidable (_ ∧ _))

/-- No bit is covered by both. -/
def Disjoint (f g : BitField) : Prop := ∀ i, ¬(f.Covers i ∧ g.Covers i)

/-- One behind the other. -/
theorem disjoint_of_le {f g : BitField} (h : f.start + f.len ≤ g.start) : f.Disjoint g := by
  intro i hi
  have := hi.1.2
  have := hi.2.1
  omega

/-- The image with the field laid over it. -/
def put (f : BitField) (img : Nat → Bool) (i : Nat) : Bool :=
  if f.Covers i then f.content (i - f.start) else img i

theorem put_mk (start len : Nat) (content img : Nat → Bool) (i : Nat) :
    put ⟨start, len, content⟩ img i
      = if start ≤ i ∧ i < start + len then content (i - start) else img i := rfl

theorem put_of_covers {f : BitField} {i : Nat} (h : f.Covers i) (img : Nat → Bool) :
    f.put img i = f.content (i - f.start) := if_pos h

theorem put_of_not_covers {f : BitField} {i : Nat} (h : ¬f.Covers i) (img : Nat → Bool) :
    f.put img i = img i := if_neg h

theorem covers_add {f : BitField} {i : Nat} (h : i < f.len) : f.Covers (f.start + i) :=
  ⟨by omega, by omega⟩

/-- The fields laid over the image, the first one first. -/
def putAll (fs : List BitField) (img : Nat → Bool) : Nat → Bool :=
  fs.foldl (fun img f => f.put img) img

theorem putAll_cons (f : BitField) (fs : List BitField) (img : Nat → Bool) :
    putAll (f :: fs) img = putAll fs (f.put img) := rfl

/-- **Frame**: what no field covers stays. -/
theorem putAll_of_forall {fs : List BitField} {i : Nat} (h : ∀ f ∈ fs, ¬f.Covers i)
    (img : Nat → Bool) : putAll fs img i = img i := by
  induction fs generalizing img with
  | nil => rfl
  | cons f fs ih =>
      rw [putAll_cons, ih (fun g hg => h g (List.mem_cons_of_mem f hg)),
        put_of_not_covers (h f List.mem_cons_self)]

/-- **Every field is read back** if no two overlap. -/
theorem putAll_of_mem {fs : List BitField} (hdisjoint : fs.Pairwise Disjoint) {f : BitField}
    (hf : f ∈ fs) (img : Nat → Bool) {i : Nat} (hi : i < f.len) :
    putAll fs img (f.start + i) = f.content i := by
  induction fs generalizing img with
  | nil => exact absurd hf List.not_mem_nil
  | cons g fs ih =>
      obtain ⟨hg, hfs⟩ := List.pairwise_cons.mp hdisjoint
      rw [putAll_cons]
      rcases List.mem_cons.mp hf with rfl | hf
      · -- the fields behind it leave it alone
        have hrest : ∀ g ∈ fs, ¬g.Covers (f.start + i) :=
          fun g hmem hcovers => hg g hmem _ ⟨covers_add hi, hcovers⟩
        rw [putAll_of_forall hrest, put_of_covers (covers_add hi), Nat.add_sub_cancel_left]
      · exact ih hfs hf _

end BitField

end GalvoCtrl.Lib
