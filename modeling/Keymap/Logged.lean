/-!
Computations that leave a record of what they did. The record of two steps in a row is the record of
the first followed by that of the second.
-/
namespace Keymap

structure Logged (ε α : Type) where
  events : List ε
  value : α

namespace Logged

variable {ε α β : Type}

instance : Monad (Logged ε) where
  pure a := ⟨[], a⟩
  bind x f := ⟨x.events ++ (f x.value).events, (f x.value).value⟩

/-- Adds events to the record. -/
def tell (events : List ε) : Logged ε Unit := ⟨events, ()⟩

@[simp] theorem events_pure (a : α) : (pure a : Logged ε α).events = [] := rfl

@[simp] theorem value_pure (a : α) : (pure a : Logged ε α).value = a := rfl

@[simp] theorem events_bind (x : Logged ε α) (f : α → Logged ε β) :
    (x >>= f).events = x.events ++ (f x.value).events := rfl

@[simp] theorem value_bind (x : Logged ε α) (f : α → Logged ε β) :
    (x >>= f).value = (f x.value).value := rfl

instance : LawfulMonad (Logged ε) := LawfulMonad.mk' _
  (fun x => by cases x; simp [Functor.map])
  (fun _ _ => rfl)
  (fun x f g => by simp [bind, List.append_assoc])

end Logged

end Keymap
