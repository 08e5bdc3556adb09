/-!
# Powers

A power of natural numbers or of integers is the one of the core library in every module, also
where algebra brings in the power of a monoid.
-/

attribute [instance (high + 1), default_instance (high + 1)] instPowNat
