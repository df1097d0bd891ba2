/-! # Powers

Bounds such as `2 ^ 256` stand in types, so a power has to be the same term in every module.
Theories that are imported by some modules only bring their own reading of `^` and prefer it; here
the built-in one is given the first place. -/

namespace StableSupply

@[default_instance 20000]
instance (priority := 20000) builtinPow {α : Type} [NatPow α] : Pow α Nat := instPowNat

end StableSupply
