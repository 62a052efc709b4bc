/-!
# Numbers of the core library

The program counts in the core library's `Nat` and `Int`, and so do the
proofs about it. A library of algebra brings powers and a zero of its own
for the same types. Here the core library's come first, so that a definition
is the same term whatever is imported beside it.
-/

attribute [instance (1100)] instPowNat Zero.ofOfNat0

-- Above `Monoid.Pow`, which is a default of priority `high`, that is 10000.
attribute [default_instance 10100] instPowNat
