/-! # Powers

The definitions of this library see no other library, and many proofs see one in which every monoid has
powers. A power with a natural exponent is the one that the type of its base defines in both of them, so
that a power in a lemma is the same term as the power in the definition that the lemma is about. It has
to be settled for all modules at once, since what a literal exponent means is settled by default instances,
which have no scope.
-/

attribute [instance (20000), default_instance 20000] instPowNat
