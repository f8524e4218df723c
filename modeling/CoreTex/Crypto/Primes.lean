import CoreTex.Crypto.Secp256k1
import CoreTex.Lib.ModPow

/-!
# CoreTex.Crypto.Primes

The field prime and the curve order are prime: a chain of Lucas certificates, each over
factors the chain has certified before it.
-/

namespace CoreTex.Secp256k1

open CoreTex.Lib

/-- Certificates for the large primes of `P - 1` and `N - 1`, then for `P` and `N`. -/
def primeChain : List LucasCertificate :=
  [
    ⟨13331831, 13, [(2, 1), (5, 1), (971, 1), (1373, 1)]⟩,
    ⟨173378833005251801, 6, [(2, 3), (5, 2), (2621, 1), (24809, 1), (13331831, 1)]⟩,
    ⟨22149492674086928081353, 5, [(2, 3), (3, 1), (5323, 1), (173378833005251801, 1)]⟩,
    ⟨132896956044521568488119, 6, [(2, 1), (3, 1), (22149492674086928081353, 1)]⟩,
    ⟨1206781, 10, [(2, 2), (3, 1), (5, 1), (20113, 1)]⟩,
    ⟨7240687, 3, [(2, 1), (3, 1), (1206781, 1)]⟩,
    ⟨107590001, 3, [(2, 4), (5, 4), (7, 1), (29, 1), (53, 1)]⟩,
    ⟨255515944373312847190720520512484175977, 3, [(2, 3), (7, 2), (11, 1), (1627, 1), (2657, 1),
      (4423, 1), (41201, 1), (96557, 1), (7240687, 1), (107590001, 1)]⟩,
    ⟨205115282021455665897114700593932402728804164701536103180137503955397371, 10, [(2, 1), (3,
      1), (5, 1), (29, 2), (31, 1), (7723, 1), (132896956044521568488119, 1),
      (255515944373312847190720520512484175977, 1)]⟩,
    ⟨P, 3, [(2, 1), (3, 1), (7, 1), (13441, 1),
      (205115282021455665897114700593932402728804164701536103180137503955397371, 1)]⟩,
    ⟨4681609, 23, [(2, 3), (3, 1), (97, 1), (2011, 1)]⟩,
    ⟨107361793816595537, 3, [(2, 4), (16699, 1), (85831, 1), (4681609, 1)]⟩,
    ⟨44706919, 6, [(2, 1), (3, 1), (797, 1), (9349, 1)]⟩,
    ⟨174723607534414371449, 3, [(2, 3), (17, 1), (59, 1), (4051, 1), (120233, 1), (44706919,
      1)]⟩,
    ⟨545358713, 5, [(2, 3), (41, 1), (59, 1), (28181, 1)]⟩,
    ⟨1627771, 3, [(2, 1), (3, 1), (5, 1), (29, 1), (1871, 1)]⟩,
    ⟨297159362677, 2, [(2, 2), (3, 2), (11, 1), (461, 1), (1627771, 1)]⟩,
    ⟨29047611873442575647497758179, 2, [(2, 1), (293, 1), (305873, 1), (545358713, 1),
      (297159362677, 1)]⟩,
    ⟨341948486974166000522343609283189, 2, [(2, 2), (3, 3), (109, 1),
      (29047611873442575647497758179, 1)]⟩,
    ⟨N, 7, [(2, 6), (3, 1), (149, 1), (631, 1), (107361793816595537, 1), (174723607534414371449,
      1), (341948486974166000522343609283189, 1)]⟩]

theorem checkChain_primeChain : checkChain [] primeChain = true := by decide +kernel

theorem prime_P : P.Prime := by
  obtain ⟨c, hc, hn⟩ := List.mem_map.mp
    (show P ∈ primeChain.map LucasCertificate.n by decide +kernel)
  exact hn ▸ prime_of_mem_chain checkChain_primeChain (by simp) c hc

theorem prime_N : N.Prime := by
  obtain ⟨c, hc, hn⟩ := List.mem_map.mp
    (show N ∈ primeChain.map LucasCertificate.n by decide +kernel)
  exact hn ▸ prime_of_mem_chain checkChain_primeChain (by simp) c hc

instance : Fact P.Prime := ⟨prime_P⟩

instance : Fact N.Prime := ⟨prime_N⟩

end CoreTex.Secp256k1
