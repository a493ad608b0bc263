/-!
# Arithmetic

Powers and sums of numbers are those of the core library, also in modules that see other instances. So a limit such as
`2 ^ 32` is the same term wherever it is written.
-/
namespace CilRelink

@[default_instance 10000]
instance (priority := 10000) corePower {α : Type} [NatPow α] : Pow α Nat := instPowNat

instance (priority := 10000) coreZero : Zero Nat := Zero.ofOfNat0

end CilRelink
